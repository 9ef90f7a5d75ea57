/- What the front-ends of all languages have in common: the steps of files, declarations, imports
and bases are safe, and passes find what earlier passes made. -/
import SourceAtlas.Proofs.Construction

namespace SourceAtlas

theorem Declaration.toNode_internal (declaration : Declaration) (qualifiedName module : String)
    {kind : NodeKind} (hk : kind ≠ .external) :
    (declaration.toNode (Identifier.symbol qualifiedName) kind module).Internal :=
  ⟨hk, Identifier.startsWith_lead .symbol .external qualifiedName⟩

/-- What an import reaches is known, or outside; a local name that it binds needs nothing. -/
def ImportEffect.Grounded (known : String → Prop) : ImportEffect → Prop
  | .reach resolution => resolution.Grounded known
  | .bind _ _ _ => True

section Steps

variable {α : Type} {known : String → Prop} (unit : SourceUnit α)

theorem SourceUnit.fileSteps_safe : SafeSteps known unit.fileSteps [unit.fileId] := by
  have internal : (fileNode unit.path unit.module).Internal :=
    ⟨by simp [fileNode], Identifier.startsWith_lead .file .external unit.path⟩
  refine (SafeSteps.declare internal).append (SafeSteps.register ?_)
  intro id member
  simp only [Registration.ids, fileId, List.mem_cons, List.not_mem_nil, or_false, or_self] at member
  exact .inr (by simp [member, fileNode])

theorem SourceUnit.symbolSteps_safe (declaration : Declaration) {kind : NodeKind}
    (hf : known unit.fileId) (hk : kind ≠ .external) :
    SafeSteps known (unit.symbolSteps declaration kind) [unit.symbolId declaration.name] := by
  refine (SafeSteps.contain hf (declaration.toNode_internal _ unit.module hk)).append
    (SafeSteps.register ?_)
  intro id member
  rw [List.mem_singleton.mp member]
  exact .inr (by simp [Declaration.toNode, symbolId])

theorem SourceUnit.methodSteps_safe {ownerId : String} (ownerName : String)
    (declaration : Declaration) (ho : known ownerId) :
    SafeSteps known (unit.methodSteps ownerId ownerName declaration)
      [unit.memberId ownerName declaration.name] := by
  refine (SafeSteps.contain ho (declaration.toNode_internal _ unit.module (by simp))).append
    (SafeSteps.register ?_)
  intro id member
  rw [List.mem_singleton.mp member]
  exact .inr (by simp [Declaration.toNode, memberId])

theorem SourceUnit.functionSteps_safe {β : Type} (functions : List β)
    (declaration : β → Declaration) (hf : known unit.fileId) :
    SafeSteps known (functions.flatMap fun function =>
      unit.symbolSteps (declaration function) .function) [] := by
  refine Safe.flatMap_nil fun function _ => ?_
  exact (unit.symbolSteps_safe (declaration function) hf (by simp)).weaken (by simp)

/-- A type with its members, which find it made. -/
theorem SourceUnit.typeSteps_safe {β : Type} (type : Declaration) (methods : List β)
    (declaration : β → Declaration) (hf : known unit.fileId) :
    SafeSteps known (unit.symbolSteps type .class ++ methods.flatMap fun method =>
      unit.methodSteps (unit.symbolId type.name) type.name (declaration method)) [] := by
  have members : SafeSteps (fun id => known id ∨ id ∈ [unit.symbolId type.name])
      (methods.flatMap fun method =>
        unit.methodSteps (unit.symbolId type.name) type.name (declaration method)) [] := by
    refine Safe.flatMap_nil fun method _ => ?_
    exact (unit.methodSteps_safe type.name (declaration method) (.inr (by simp))).weaken (by simp)
  exact ((unit.symbolSteps_safe type hf (by simp)).append members).weaken (by simp)

/-- One edge from the same node for each of several references. -/
theorem links_safe {β : Type} {source : String} {references : List β} {resolve : β → Resolution}
    (kind : EdgeKind) (hs : known source)
    (grounded : ∀ reference ∈ references, (resolve reference).Grounded known) :
    SafeSteps known (references.flatMap fun reference => Step.link source (resolve reference) kind)
      [] :=
  Safe.flatMap_nil fun reference member => SafeSteps.link kind hs (grounded reference member)

theorem baseSteps_safe {typeId : String} {resolutions : List Resolution} (ht : known typeId)
    (grounded : ∀ resolution ∈ resolutions, resolution.Grounded known) :
    SafeSteps known (baseSteps typeId resolutions) [] :=
  (links_safe .inherits ht grounded).append (SafeSteps.register (by simp [Registration.ids]))

theorem importSteps_safe {source : String} (hs : known source) (reached : List String)
    {effects : List ImportEffect} (grounded : ∀ effect ∈ effects, effect.Grounded known) :
    SafeSteps known (importSteps source reached effects) [] := by
  fun_induction importSteps source reached effects with
  | case1 => exact Safe.nil
  | case2 reached module localName binding rest ih =>
      have bound : SafeSteps known [.register (.binding module localName binding)] [] :=
        SafeSteps.register (by simp [Registration.ids])
      exact bound.append ((ih fun effect member => grounded effect (by simp [member])).mono
        fun _ h => .inl h)
  | case3 reached resolution rest target old ih =>
      exact ih fun effect member => grounded effect (by simp [member])
  | case4 reached resolution rest target new ih =>
      have here : resolution.Grounded known := grounded (.reach resolution) (by simp)
      have link := SafeSteps.link .imports hs here
      exact link.append ((ih fun effect member => grounded effect (by simp [member])).mono
        fun _ h => .inl h)

end Steps

abbrev SafeScripts : (String → Prop) → List Script → List String → Prop :=
  Safe fun draft script => draft.run (script draft.tables)

/-- Whatever the tables hold, if it is all known then the steps of the script are safe. -/
def SafeScript (known : String → Prop) (script : Script) (gives : List String) : Prop :=
  ∀ (wider : String → Prop) (tables : SymbolTables), (∀ id, known id → wider id) →
    tables.HoldsOnly wider → SafeSteps wider (script tables) gives

section Scripts

variable {known : String → Prop} {gives : List String}

theorem SafeScript.single {script : Script} (h : SafeScript known script gives) :
    SafeScripts known [script] gives :=
  fun draft sound inside =>
    h draft.graph.Inside draft.tables inside sound.tables draft sound fun _ hid => hid

theorem SafeSteps.fixed {steps : List Step} (h : SafeSteps known steps gives) :
    SafeScript known (Script.fixed steps) gives :=
  fun _ _ sub _ => h.mono sub

theorem SafeScripts.map {α : Type} {list : List α} {script : α → Script} {made : α → List String}
    (h : ∀ member ∈ list, SafeScript known (script member) (made member)) :
    SafeScripts known (list.map script) (list.flatMap made) := by
  rw [List.map_eq_flatMap]
  exact Safe.flatMap fun member inside => (h member inside).single

theorem SafeScripts.map_nil {α : Type} {list : List α} {script : α → Script}
    (h : ∀ member ∈ list, SafeScript known (script member) []) :
    SafeScripts known (list.map script) [] :=
  (SafeScripts.map h).weaken (by simp)

end Scripts

section Relations

variable {α β γ δ ε : Type} {known : String → Prop} (unit : SourceUnit α) {functions : List β}
  {classes : List γ} {declaration : β → Declaration} {type : γ → Declaration} {methods : γ → List β}
  {calls : β → List δ} {bases : γ → List ε}

theorem importScript_safe {list : List β} {effects : SymbolTables → β → List ImportEffect}
    (hf : known unit.fileId)
    (grounded : ∀ {wider : String → Prop} {tables : SymbolTables},
      tables.HoldsOnly wider → ∀ imported, ∀ effect ∈ effects tables imported,
      effect.Grounded wider) :
    SafeScript known (fun tables => importSteps unit.fileId [] (list.flatMap (effects tables)))
      [] := by
  intro wider tables sub holds
  refine importSteps_safe (sub _ hf) [] fun effect member => ?_
  obtain ⟨imported, _, inside⟩ := List.mem_flatMap.mp member
  exact grounded holds imported effect inside

/-- The bases of the types that the tables know. -/
theorem baseScript_safe {id? : SymbolTables → γ → Option String}
    {resolve : SymbolTables → ε → Resolution}
    (held : ∀ {wider : String → Prop} {tables : SymbolTables}, tables.HoldsOnly wider → ∀ {cls id},
      id? tables cls = some id → wider id)
    (grounded : ∀ {wider : String → Prop} {tables : SymbolTables}, tables.HoldsOnly wider → ∀ base,
      (resolve tables base).Grounded wider) :
    SafeScript known (fun tables => classes.flatMap fun cls =>
      match id? tables cls with
      | some id => baseSteps id ((bases cls).map (resolve tables))
      | none => []) [] := by
  intro wider tables _ holds
  refine Safe.flatMap_nil fun cls _ => ?_
  split
  · next id found =>
      refine baseSteps_safe (held holds found) fun resolution member => ?_
      obtain ⟨base, _, rfl⟩ := List.mem_map.mp member
      exact grounded holds base
  · exact Safe.nil

/-- The calls in the functions that the tables know. -/
theorem functionCalls_safe {tables : SymbolTables} (holds : tables.HoldsOnly known)
    {callSteps : String → δ → List Step}
    (one : ∀ {source}, known source → ∀ call, SafeSteps known (callSteps source call) []) :
    SafeSteps known (functions.flatMap fun function =>
      match tables.local? unit.module (declaration function).name with
      | some id => (calls function).flatMap (callSteps id)
      | none => []) [] := by
  refine Safe.flatMap_nil fun function _ => ?_
  split
  · next id found => exact Safe.flatMap_nil fun call _ => one (holds.local found) call
  · exact Safe.nil

/-- The calls in functions, and in methods that the tables know like their classes. -/
theorem callScript_safe {callSteps : SymbolTables → Option String → String → δ → List Step}
    (one : ∀ {wider : String → Prop} {tables : SymbolTables}, tables.HoldsOnly wider → ∀ {source},
      wider source → ∀ currentClass call,
      SafeSteps wider (callSteps tables currentClass source call) []) :
    SafeScript known (fun tables => (functions.flatMap fun function =>
        match tables.local? unit.module (declaration function).name with
        | some id => (calls function).flatMap (callSteps tables none id)
        | none => []) ++
      classes.flatMap fun cls =>
        match tables.classIn? unit.module (type cls).name with
        | some classId => (methods cls).flatMap fun method =>
          match tables.method? classId (declaration method).name with
          | some id => (calls method).flatMap (callSteps tables (some classId) id)
          | none => []
        | none => []) [] := by
  intro wider tables _ holds
  refine (functionCalls_safe unit holds fun source call => one holds source none call).append
    (Safe.mono (Safe.flatMap_nil fun cls _ => ?_) fun _ h => .inl h)
  split
  · next classId _ =>
      refine Safe.flatMap_nil fun method _ => ?_
      split
      · next id found =>
          exact Safe.flatMap_nil fun call _ => one holds (holds.method found) (some classId) call
      · exact Safe.nil
  · exact Safe.nil

end Relations

/-- The passes that are complete for every file when a pass begins. -/
def Pass.earlier : Pass → List Pass
  | .files => []
  | .definitions => [.files]
  | .imports => [.files, .definitions]
  | .relations => [.files, .definitions, .imports]

/-- The ids whose nodes the passes of a front-end make for later ones to rely on, besides what
the tables hold: every file after the first pass, and given members after the second. -/
def landmarks {α : Type} (units : List (SourceUnit α)) (members : List String) : Pass → List String
  | .files => units.map SourceUnit.fileId
  | .definitions => members
  | .imports => []
  | .relations => []

/-- Each pass of a front-end is safe once its earlier passes have made their landmarks. -/
def Lawful (scripts : Pass → List Script) (marks : Pass → List String) : Prop :=
  ∀ pass, SafeScripts (fun id => ∃ earlier ∈ pass.earlier, id ∈ marks earlier) (scripts pass)
    (marks pass)

theorem file_landmark {α : Type} {units : List (SourceUnit α)} {unit : SourceUnit α}
    (members : List String) {pass : Pass} (later : .files ∈ pass.earlier) (member : unit ∈ units) :
    ∃ earlier ∈ pass.earlier, unit.fileId ∈ landmarks units members earlier :=
  ⟨.files, later, List.mem_map_of_mem member⟩

theorem fileScripts_safe {α : Type} {known : String → Prop} (units : List (SourceUnit α)) :
    SafeScripts known (units.map fun unit => Script.fixed unit.fileSteps)
      (units.map SourceUnit.fileId) := by
  have ids : units.map SourceUnit.fileId = units.flatMap fun unit => [unit.fileId] :=
    List.map_eq_flatMap
  rw [ids]
  exact SafeScripts.map fun unit _ => unit.fileSteps_safe.fixed

/-- The scripts of all families have one form: files and imports unit by unit, and all bases before
all calls. -/
def Pass.scripts {α : Type} (units : List (SourceUnit α)) (definitions : List Script)
    (imports bases calls : SourceUnit α → Script) : Pass → List Script
  | .files => units.map fun unit => Script.fixed unit.fileSteps
  | .definitions => definitions
  | .imports => units.map imports
  | .relations => units.map bases ++ units.map calls

/-- Scripts of this form are lawful when those for definitions make the members, and those for
imports, bases and calls rely on nothing but files, tables and members. -/
theorem Pass.scripts_lawful {α : Type} {units : List (SourceUnit α)} {members : List String}
    {definitions : List Script} {imports bases calls : SourceUnit α → Script}
    (defined : ∀ {known : String → Prop},
      (∀ unit ∈ units, known unit.fileId) → SafeScripts known definitions members)
    (imported : ∀ {known : String → Prop}, ∀ unit,
      known unit.fileId → SafeScript known (imports unit) [])
    (stated : ∀ {known : String → Prop}, ∀ unit, SafeScript known (bases unit) [])
    (called : ∀ {known : String → Prop}, (∀ id ∈ members, known id) → ∀ unit ∈ units,
      SafeScript known (calls unit) []) :
    Lawful (fun pass => pass.scripts units definitions imports bases calls)
      (landmarks units members) := by
  intro pass
  cases pass with
  | files => exact fileScripts_safe units
  | definitions => exact defined fun unit member => file_landmark _ (by decide) member
  | imports =>
      refine SafeScripts.map_nil fun unit member => imported unit ?_
      exact file_landmark _ (by decide) member
  | relations =>
      refine (SafeScripts.map_nil fun unit _ => stated unit).append
        (SafeScripts.map_nil fun unit member => ?_)
      exact called (fun id inside => .inl ⟨.definitions, by simp [Pass.earlier], inside⟩)
        unit member

end SourceAtlas
