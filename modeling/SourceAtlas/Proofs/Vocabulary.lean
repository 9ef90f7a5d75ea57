/- What the passes may do at all: the nodes, edges and entries that the steps of each pass are
about, for every front-end, every file and every state of the tables. -/
import SourceAtlas.Proofs.Integrity
import SourceAtlas.Proofs.Trace

namespace SourceAtlas

namespace Pass

/-- The kinds of edges that a pass draws. -/
def links : Pass → EdgeKind → Bool
  | .files, _ => false
  | .definitions, kind => kind == .contains
  | .imports, kind => kind == .imports
  | .relations, kind => kind != .contains && kind != .imports

end Pass

/-- One entry that a pass of a family may make. The id of a symbol follows from its module and its
name, and that of a method from its type and its name; only extensions of a type in another module
make methods with ids of their own. -/
def Registration.Suits (family : Family) : Pass → Registration → Prop
  | .files, .file _ _ _ => True
  | .definitions, .symbol module name id _ =>
      id = Identifier.symbol (Identifier.qualify module name)
  | .definitions, .method typeId name id => family = .swift ∨ ∃ type,
      typeId = Identifier.symbol type ∧ id = Identifier.symbol (Identifier.qualify type name)
  | .definitions, .blueprint _ _ _ => True
  | .imports, .binding _ _ _ => True
  | .relations, .bases _ _ => True
  | _, _ => False

/-- One step that a pass of a family may take. Only the definitions of one family adopt nodes. -/
def Step.Suits (family : Family) (pass : Pass) : Step → Prop
  | .declare node => Identifier.isBlueprint node.id = false
  | .adopt node _ _ =>
      Identifier.isBlueprint node.id = true ∧ pass = .definitions ∧ family = .python
  | .mention _ => True
  | .connect edge => pass.links edge.kind = true
  | .register entry => entry.Suits family pass

theorem Step.Suits.tidy {family : Family} {pass : Pass} {step : Step}
    (suits : step.Suits family pass) :
    step.Tidy := by
  cases step with
  | declare node => exact suits
  | adopt node container confidence => exact suits.1
  | mention name => trivial
  | connect edge => trivial
  | register entry => trivial

/-- A property that each of several steps has. -/
def Step.Each (holds : Step → Prop) (steps : List Step) : Prop :=
  ∀ step ∈ steps, holds step

namespace Step.Each

variable {holds : Step → Prop} {first second : List Step}

theorem nil : Each holds [] := by
  intro step member
  cases member

theorem cons {step : Step} (here : holds step) (rest : Each holds second) :
    Each holds (step :: second) :=
  List.forall_mem_cons.mpr ⟨here, rest⟩

theorem append (start : Each holds first) (rest : Each holds second) :
    Each holds (first ++ second) :=
  List.forall_mem_append.mpr ⟨start, rest⟩

theorem flatMap {α : Type} {list : List α} {part : α → List Step}
    (each : ∀ item ∈ list, Each holds (part item)) :
    Each holds (list.flatMap part) := by
  intro step member
  obtain ⟨item, listed, inside⟩ := List.mem_flatMap.mp member
  exact each item listed step inside

theorem mono {weaker : Step → Prop} (each : Each holds first)
    (implies : ∀ step, holds step → weaker step) :
    Each weaker first :=
  fun step member => implies step (each step member)

/-- What is done for a declaration only if the tables know it. -/
theorem known {id? : Option String} {part : String → List Step} :
    (∀ id, id? = some id → Each holds (part id)) → Each holds (match id? with
      | some id => part id
      | none => []) := by
  intro each
  cases found : id? with
  | none => exact nil
  | some id => exact each id found

theorem link {source : String} {resolution : Resolution} {kind : EdgeKind}
    (mention : ∀ name, holds (.mention name))
    (connect : holds (.connect (resolution.edge source kind))) :
    Each holds (Step.link source resolution kind) := by
  obtain ⟨target, confidence⟩ := resolution
  cases target with
  | node id => exact .cons connect .nil
  | external name => exact .cons (mention name) (.cons connect .nil)

theorem bases {typeId : String} {resolutions : List Resolution}
    (links : ∀ resolution, Each holds (Step.link typeId resolution .inherits))
    (records : holds (.register (.bases typeId (resolutions.filterMap Resolution.nodeId?)))) :
    Each holds (baseSteps typeId resolutions) :=
  append (flatMap fun resolution _ => links resolution) (.cons records .nil)

theorem imports {source : String} {reached : List String} {effects : List ImportEffect}
    (links : ∀ resolution, Each holds (Step.link source resolution .imports))
    (binds : ∀ module localName binding, .bind module localName binding ∈ effects →
      holds (.register (.binding module localName binding))) :
    Each holds (importSteps source reached effects) := by
  fun_induction importSteps source reached effects with
  | case1 => exact nil
  | case2 reached module localName binding rest ih =>
      refine .cons (binds module localName binding (by simp))
        (ih fun other name meaning member => ?_)
      exact binds other name meaning (by simp [member])
  | case3 reached resolution rest target old ih =>
      exact ih fun other name meaning member => binds other name meaning (by simp [member])
  | case4 reached resolution rest target new ih =>
      refine append (links resolution) (ih fun other name meaning member => ?_)
      exact binds other name meaning (by simp [member])

theorem entry {entry : Registration} (each : Each holds first) (member : entry ∈ entries first) :
    holds (.register entry) := by
  obtain ⟨step, inside, same⟩ := List.mem_filterMap.mp member
  have held := each step inside
  cases step with
  | register other =>
      cases same
      exact held
  | _ => cases same

end Step.Each

/-- All of several steps may be taken. -/
def Step.AllSuit (family : Family) (pass : Pass) (steps : List Step) : Prop :=
  ∀ step ∈ steps, step.Suits family pass

namespace Step.AllSuit

variable {family : Family} {pass : Pass}

theorem nil : AllSuit family pass [] := Each.nil

theorem entry {steps : List Step} {entry : Registration} (suits : AllSuit family pass steps)
    (member : entry ∈ entries steps) : entry.Suits family pass :=
  Each.entry suits member

end Step.AllSuit

/-- Calls to functions and methods, and registrations of blueprints. -/
def EdgeKind.isCall (kind : EdgeKind) : Bool := kind == .calls || kind == .blueprint

/-- The steps that calls lead to: edges, and names of what they lead to outside of the
repository. -/
def Step.IsCall : Step → Prop
  | .mention _ => True
  | .connect edge => edge.kind.isCall = true
  | _ => False

theorem Step.IsCall.suits {family : Family} {step : Step} (call : step.IsCall) :
    step.Suits family .relations := by
  cases step with
  | mention name => trivial
  | connect edge =>
      obtain ⟨source, target, kind, confidence⟩ := edge
      cases kind <;> first | rfl | cases call
  | _ => cases call

theorem Step.Each.link_isCall (source : String) (resolution : Resolution) :
    Each IsCall (Step.link source resolution .calls) :=
  .link (fun _ => trivial) rfl

/-- The steps of every script suit the pass that it belongs to. -/
def Frontends.Suitable (frontends : Frontends) : Prop :=
  ∀ family pass, ∀ script ∈ frontends family pass, ∀ tables,
    Step.AllSuit family pass (script tables)

open Step

theorem Python.callScript_isCall (unit : SourceUnit Python.Outline) (tables : SymbolTables) :
    Each IsCall (Python.callScript unit tables) := by
  have call (currentClass : Option String) (source : String) (call : Python.Call) :
      Each IsCall (Python.callSteps unit tables currentClass source call) := by
    unfold Python.callSteps
    split
    · exact .cons rfl .nil
    · exact .link_isCall source _
  refine .append (.flatMap fun function _ => .known fun id _ => ?_)
    (.flatMap fun cls _ => .known fun classId _ => ?_)
  · exact .flatMap fun record _ => call none id record
  · exact .flatMap fun method _ => .known fun id _ => .flatMap fun record _ =>
      call (some classId) id record

theorem JavaScript.callScript_isCall (unit : SourceUnit JavaScript.Outline)
    (tables : SymbolTables) :
    Each IsCall (JavaScript.callScript unit tables) := by
  refine .append (.flatMap fun function _ => .known fun id _ => ?_)
    (.flatMap fun cls _ => .known fun classId _ => ?_)
  · exact .flatMap fun callee _ => .link_isCall id _
  · exact .flatMap fun method _ => .known fun id _ => .flatMap fun callee _ => .link_isCall id _

/-- What holds of the steps of a type holds of those that an extension takes to have one. -/
theorem Swift.owner_each {holds : Step → Prop} {unit : SourceUnit Swift.Outline}
    {type : Swift.TypeDeclaration} (tables : SymbolTables)
    (made : Each holds (unit.symbolSteps type.declaration .class)) :
    Each holds (Swift.owner unit tables type).2 := by
  unfold Swift.owner
  split
  · split
    · exact .nil
    · exact made
  · exact .nil

theorem Swift.callScript_isCall (unit : SourceUnit Swift.Outline) (tables : SymbolTables) :
    Each IsCall (Swift.callScript unit tables) := by
  refine .append (.flatMap fun function _ => .known fun id _ => ?_)
    (.flatMap fun type _ => .known fun typeId _ => ?_)
  · exact .flatMap fun callee _ => .link_isCall id _
  · exact .flatMap fun method _ => .flatMap fun callee _ => .link_isCall _ _

/-- The laws of a property that the steps of each pass are to have: one for each group of steps that
the scripts of a family are made of. -/
structure Step.Laws (family : Family) (holds : Pass → Step → Prop) : Prop where
  file {α : Type} (unit : SourceUnit α) : Each (holds .files) unit.fileSteps
  symbol {α : Type} (unit : SourceUnit α) (declaration : Declaration) {kind : NodeKind}
    (declared : kind ≠ .file) :
    Each (holds .definitions) (unit.symbolSteps declaration kind)
  method {α : Type} (unit : SourceUnit α) {ownerId ownerName : String} (declaration : Declaration)
    (owned : family = .swift ∨ ownerId = unit.symbolId ownerName) :
    Each (holds .definitions) (unit.methodSteps ownerId ownerName declaration)
  blueprint (unit : SourceUnit Python.Outline) (blueprint : Python.Blueprint)
    (own : family = .python) :
    Each (holds .definitions) (Python.blueprintSteps unit blueprint)
  imports (source : String) (effects : List ImportEffect) :
    Each (holds .imports) (importSteps source [] effects)
  bases (typeId : String) (resolutions : List Resolution) :
    Each (holds .relations) (baseSteps typeId resolutions)
  call {step : Step} (isCall : step.IsCall) : holds .relations step

namespace Step.Laws

variable {α β γ : Type} {family : Family} {holds : Pass → Step → Prop} (laws : Laws family holds)
include laws

/-- Types with their members, and functions, after whatever else a unit declares. -/
theorem definitions (unit : SourceUnit α) {before : List Step}
    (others : Each (holds .definitions) before) (types : List γ) (functions : List β)
    (type : γ → Declaration) (methods : γ → List β) (declaration : β → Declaration) :
    Each (holds .definitions) (before ++
      (types.flatMap fun cls => unit.symbolSteps (type cls) .class ++
        (methods cls).flatMap fun method =>
          unit.methodSteps (unit.symbolId (type cls).name) (type cls).name (declaration method)) ++
      functions.flatMap fun function => unit.symbolSteps (declaration function) .function) := by
  refine .append (.append others (.flatMap fun cls _ => ?_)) (.flatMap fun function _ => ?_)
  · exact .append (laws.symbol unit (type cls) (by decide))
      (.flatMap fun method _ => laws.method unit (declaration method) (.inr rfl))
  · exact laws.symbol unit (declaration function) (by decide)

theorem scripts {units : List (SourceUnit α)} {definitions : List Script}
    {imports bases calls : SourceUnit α → Script}
    (defined : ∀ script ∈ definitions, ∀ tables, Each (holds .definitions) (script tables))
    (imported : ∀ unit tables, ∃ effects, imports unit tables = importSteps unit.fileId [] effects)
    (stated : ∀ unit tables, Each (holds .relations) (bases unit tables))
    (called : ∀ unit tables, Each IsCall (calls unit tables)) (pass : Pass) :
    ∀ script ∈ pass.scripts units definitions imports bases calls, ∀ tables,
      Each (holds pass) (script tables) := by
  intro script member tables
  cases pass with
  | files =>
      obtain ⟨unit, _, rfl⟩ := List.mem_map.mp member
      exact laws.file unit
  | definitions => exact defined script member tables
  | imports =>
      obtain ⟨unit, _, rfl⟩ := List.mem_map.mp member
      obtain ⟨effects, same⟩ := imported unit tables
      rw [same]
      exact laws.imports unit.fileId effects
  | relations =>
      rcases List.mem_append.mp member with base | call
      · obtain ⟨unit, _, rfl⟩ := List.mem_map.mp base
        exact stated unit tables
      · obtain ⟨unit, _, rfl⟩ := List.mem_map.mp call
        exact (called unit tables).mono fun step isCall => laws.call isCall

end Step.Laws

/-- A property that obeys the laws is one of all steps that the front-ends can take. -/
theorem Frontends.ofFiles_each {holds : Family → Pass → Step → Prop}
    (laws : ∀ family, Laws family (holds family)) (moduleName : SourceFile → String)
    (files : List SourceFile) (family : Family) (pass : Pass) :
    ∀ script ∈ Frontends.ofFiles moduleName files family pass, ∀ tables,
      Each (holds family pass) (script tables) := by
  cases family with
  | python =>
      rw [ofFiles, Python.scripts_eq]
      refine (laws .python).scripts ?_ (fun _ _ => ⟨_, rfl⟩) (fun _ _ => ?_)
        Python.callScript_isCall pass
      · intro script member tables
        obtain ⟨unit, _, rfl⟩ := List.mem_map.mp member
        exact (laws .python).definitions unit
          (.flatMap fun one _ => (laws .python).blueprint unit one rfl) _ _ _ _ _
      · exact .flatMap fun cls _ => .known fun classId _ => (laws .python).bases classId _
  | javaScript =>
      rw [ofFiles, JavaScript.scripts_eq]
      refine (laws .javaScript).scripts ?_ (fun _ _ => ⟨_, rfl⟩) (fun _ _ => ?_)
        JavaScript.callScript_isCall pass
      · intro script member tables
        obtain ⟨unit, _, rfl⟩ := List.mem_map.mp member
        exact (laws .javaScript).definitions unit .nil _ _ _ _ _
      · exact .flatMap fun cls _ => .known fun classId _ => (laws .javaScript).bases classId _
  | swift =>
      have symbol (unit : SourceUnit Swift.Outline) (declaration : Declaration) (kind : NodeKind) :=
        @(laws .swift).symbol _ unit declaration kind
      rw [ofFiles, Swift.scripts_eq]
      refine (laws .swift).scripts ?_ (fun _ _ => ⟨_, rfl⟩) (fun _ _ => ?_)
        Swift.callScript_isCall pass
      · intro script member tables
        rcases List.mem_append.mp member with primary | members
        · obtain ⟨unit, _, rfl⟩ := List.mem_map.mp primary
          exact .append (.flatMap fun function _ =>
            symbol unit function.declaration .function (by decide))
            (.flatMap fun type _ => symbol unit type.declaration .class (by decide))
        · obtain ⟨unit, _, listed⟩ := List.mem_flatMap.mp members
          obtain ⟨type, _, rfl⟩ := List.mem_map.mp listed
          exact .append (Swift.owner_each tables (symbol unit type.declaration .class (by decide)))
            (.flatMap fun method _ => (laws .swift).method unit method.declaration (.inl rfl))
      · exact .flatMap fun type _ => .known fun typeId _ => (laws .swift).bases typeId _

theorem Step.laws_suits (family : Family) : Laws family (Suits family) where
  file unit := .cons (Identifier.startsWith_lead .file .blueprint unit.path) (.cons trivial .nil)
  symbol _ _ _ _ := .cons (Identifier.startsWith_lead .symbol .blueprint _)
    (.cons rfl (.cons rfl .nil))
  method _ _ _ _ owned := .cons (Identifier.startsWith_lead .symbol .blueprint _)
    (.cons rfl (.cons (owned.imp_right fun own => ⟨_, own, rfl⟩) .nil))
  blueprint _ _ own := .cons ⟨Identifier.startsWith_lead .blueprint .blueprint _, rfl, own⟩
    (.cons trivial .nil)
  imports _ _ := .imports (fun _ => .link (fun _ => trivial) rfl) fun _ _ _ _ => trivial
  bases _ _ := .bases (fun _ => .link (fun _ => trivial) rfl) trivial
  call isCall := isCall.suits

theorem Frontends.ofFiles_suitable (moduleName : SourceFile → String) (files : List SourceFile) :
    (Frontends.ofFiles moduleName files).Suitable :=
  ofFiles_each laws_suits moduleName files

end SourceAtlas
