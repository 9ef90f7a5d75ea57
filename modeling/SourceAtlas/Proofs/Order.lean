/- The order of files has no say in what refers to what: where every file has a namespace of its
own, the entries of different files keep apart in every pass, so that each pass sees the same tables
whatever the order was. -/
import Mathlib.Data.List.Nodup
import Mathlib.Data.List.Perm.Basic
import SourceAtlas.Proofs.Commutation
import SourceAtlas.Proofs.Separation
import SourceAtlas.Proofs.Sites

namespace SourceAtlas

open Step

/-- Without a dot, as the names of types are written. -/
def Dotless (name : String) : Prop := '.' ∉ name.toList

instance (name : String) : Decidable (Dotless name) := inferInstanceAs (Decidable (_ ∉ _))

/-- The module can be told from a qualified name. -/
theorem Identifier.module_eq_of_qualify {module other name given : String} (plain : Dotless name)
    (alsoPlain : Dotless given)
    (same : Identifier.qualify module name = Identifier.qualify other given) :
    module = other := by
  have dotted {first second : String} (text : String) (missing : Dotless text) :
      text ≠ first ++ "." ++ second := by
    intro equal
    refine missing ?_
    rw [equal]
    simp
  unfold Identifier.qualify at same
  split at same
  · next root =>
      split at same
      · next alsoRoot => rw [root, alsoRoot]
      · exact absurd same (dotted name plain)
  · split at same
    · exact absurd same.symm (dotted given alsoPlain)
    · -- Neither name has a dot, so the last dot of the text ends the module in both readings.
      have texts : module.toList ++ '.' :: name.toList = other.toList ++ '.' :: given.toList := by
        have lists := congrArg String.toList same
        simpa using lists
      obtain ⟨modules, -, -⟩ := Text.eq_of_cut_last plain alsoPlain texts
      exact String.ext modules

section Footprint

variable {α : Type}

/-- The id of a type that a unit declares. -/
def SourceUnit.OwnsType (unit : SourceUnit α) (id : String) : Prop :=
  ∃ name, Dotless name ∧ id = unit.symbolId name

theorem SourceUnit.OwnsType.module_eq {unit other : SourceUnit α} {id : String}
    (here : unit.OwnsType id) (there : other.OwnsType id) : unit.module = other.module := by
  obtain ⟨name, plain, rfl⟩ := here
  obtain ⟨given, alsoPlain, same⟩ := there
  exact Identifier.module_eq_of_qualify plain alsoPlain (Identifier.symbol_inj.mp same)

/-- An entry that concerns a unit alone: its module, its types and its path. -/
def Registration.Within (unit : SourceUnit α) : Registration → Prop
  | .file module path _ => module = unit.module ∧ path = unit.path
  | .symbol module _ id isType => module = unit.module ∧ (isType = true → unit.OwnsType id)
  | .method typeId _ _ => unit.OwnsType typeId
  | .binding module _ _ => module = unit.module
  | .bases typeId _ => unit.OwnsType typeId
  | .blueprint module _ _ => module = unit.module

namespace Registration.Within

variable {unit other : SourceUnit α} {entry later : Registration}

theorem module (within : entry.Within unit) {name : String} (changed : entry.module? = some name) :
    name = unit.module := by
  cases entry <;> simp_all [Registration.Within, Registration.module?]

theorem type (within : entry.Within unit) {id : String} (changed : entry.type? = some id) :
    unit.OwnsType id := by
  cases entry with
  | symbol module name id isType =>
      cases isType <;> simp_all [Registration.Within, Registration.type?]
  | _ => simp_all [Registration.Within, Registration.type?]

theorem bases (within : entry.Within unit) {id : String} (changed : entry.basesFor id ≠ []) :
    unit.OwnsType id := by
  cases entry <;> simp_all [Registration.Within, Registration.basesFor]

theorem path (within : entry.Within unit) {path : String} (changed : entry.moduleAt? path ≠ none) :
    path = unit.path := by
  cases entry <;> simp_all [Registration.Within, Registration.moduleAt?]

/-- Units with different modules and paths keep apart. -/
theorem apart (here : entry.Within unit) (there : later.Within other)
    (modules : unit.module ≠ other.module) (paths : unit.path ≠ other.path) :
    entry.Apart later := by
  refine ⟨fun name one two => ?_, fun id one two => ?_, fun id => ?_, fun path => ?_⟩
  · exact modules ((here.module one).symm.trans (there.module two))
  · exact modules ((here.type one).module_eq (there.type two))
  · by_cases one : entry.basesFor id = []
    · exact .inl one
    · exact .inr (Decidable.byContradiction fun two =>
        modules ((here.bases one).module_eq (there.bases two)))
  · by_cases one : entry.moduleAt? path = none
    · exact .inl one
    · exact .inr (Decidable.byContradiction fun two =>
        paths ((here.path one).symm.trans (there.path two)))

end Registration.Within

/-- A step whose entry, if it makes one, concerns a unit alone. -/
def Step.Within (unit : SourceUnit α) : Step → Prop
  | .register entry => entry.Within unit
  | _ => True

/-- All entries of some steps concern one unit. -/
def SourceUnit.Confines (unit : SourceUnit α) (steps : List Step) : Prop :=
  ∀ entry ∈ entries steps, entry.Within unit

theorem Step.Each.confines {unit : SourceUnit α} {steps : List Step}
    (within : Each (Step.Within unit) steps) :
    unit.Confines steps :=
  fun _ member => within.entry member

namespace Step.Within

variable {unit : SourceUnit α}

theorem function (unit : SourceUnit α) (declaration : Declaration) :
    Each (Step.Within unit) (unit.symbolSteps declaration .function) :=
  .cons trivial (.cons trivial (.cons ⟨rfl, fun isType => by cases isType⟩ .nil))

theorem type {β : Type} {declaration : Declaration} {methods : List β} {member : β → Declaration}
    (plain : Dotless declaration.name) :
    Each (Step.Within unit) (unit.symbolSteps declaration .class ++ methods.flatMap fun method =>
      unit.methodSteps (unit.symbolId declaration.name) declaration.name (member method)) := by
  have owns : unit.OwnsType (unit.symbolId declaration.name) := ⟨_, plain, rfl⟩
  refine .append (.cons trivial (.cons trivial (.cons ⟨rfl, fun _ => owns⟩ .nil)))
    (.flatMap fun method _ => ?_)
  exact .cons trivial (.cons trivial (.cons owns .nil))

theorem imports {source : String} {reached : List String} {effects : List ImportEffect}
    (own : ∀ module localName binding,
      .bind module localName binding ∈ effects → module = unit.module) :
    Each (Step.Within unit) (importSteps source reached effects) :=
  .imports (fun _ => .link (fun _ => trivial) trivial) own

theorem bases {typeId : String} (owns : unit.OwnsType typeId) (resolutions : List Resolution) :
    Each (Step.Within unit) (baseSteps typeId resolutions) :=
  .bases (fun _ => .link (fun _ => trivial) trivial) owns

end Step.Within

theorem SourceUnit.confines_fileSteps (unit : SourceUnit α) : unit.Confines unit.fileSteps :=
  Each.confines (.cons trivial (.cons ⟨rfl, rfl⟩ .nil))

namespace SourceUnit

variable {β γ δ ε : Type} {unit : SourceUnit α} {tables : SymbolTables} {functions : List β}
  {classes : List γ} {declaration : β → Declaration} {type : γ → Declaration} {methods : γ → List β}
  {calls : β → List δ} {bases : γ → List ε}

/-- Definitions stay within their unit when no name of a type has a dot. -/
theorem confines_definitions {before : List Step} (first : Each (Step.Within unit) before)
    (plain : ∀ listed ∈ (Inventory.listing functions classes declaration
      (fun function => (calls function).length) type (fun cls => (bases cls).length) methods).types,
      Dotless listed.name) :
    unit.Confines (before ++ (classes.flatMap fun cls => unit.symbolSteps (type cls) .class ++
      (methods cls).flatMap fun method =>
        unit.methodSteps (unit.symbolId (type cls).name) (type cls).name (declaration method)) ++
      functions.flatMap fun function => unit.symbolSteps (declaration function) .function) := by
  refine Each.confines (.append (.append first (.flatMap fun cls listed => ?_))
    (.flatMap fun function _ => ?_))
  · exact Step.Within.type (plain _ (List.mem_map_of_mem listed))
  · exact Step.Within.function unit (declaration function)

theorem confines_imports {source : String} {list : List β} {effects : β → List ImportEffect}
    (own : ∀ {imported module localName binding},
      .bind module localName binding ∈ effects imported → module = unit.module) :
    unit.Confines (importSteps source [] (list.flatMap effects)) := by
  refine Each.confines (Step.Within.imports fun module localName binding member => ?_)
  obtain ⟨imported, _, inside⟩ := List.mem_flatMap.mp member
  exact own inside

/-- The bases of known classes stay within their unit. -/
theorem confines_bases {resolve : ε → Resolution}
    (plain : ∀ listed ∈ (Inventory.listing functions classes declaration
      (fun function => (calls function).length) type (fun cls => (bases cls).length) methods).types,
      Dotless listed.name)
    (known : unit.Known tables (.listing functions classes declaration
      (fun function => (calls function).length) type (fun cls => (bases cls).length) methods)) :
    unit.Confines (classes.flatMap fun cls =>
      match tables.classIn? unit.module (type cls).name with
      | some classId => baseSteps classId ((bases cls).map resolve)
      | none => []) := by
  refine Each.confines (.flatMap fun cls listed => .known fun id found => Step.Within.bases ?_ _)
  rw [← Option.some.inj ((known.types _ (List.mem_map_of_mem listed)).symm.trans found)]
  exact ⟨_, plain _ (List.mem_map_of_mem listed), rfl⟩

end SourceUnit

end Footprint

/-- A front-end whose scripts for one unit concern that unit alone. Its imports read only which
modules and files there are. -/
structure ConfinedFrontEnd (α : Type) extends PlainFrontEnd α where
  defineConfined {unit : SourceUnit α}
      (plain : ∀ type ∈ (inventory unit.outline).types, Dotless type.name) :
    unit.Confines (define unit)
  importsConfined (unit : SourceUnit α) (tables : SymbolTables) :
    unit.Confines (imports unit tables)
  basesConfined {unit : SourceUnit α} {tables : SymbolTables}
    (plain : ∀ type ∈ (inventory unit.outline).types, Dotless type.name)
    (known : unit.Known tables (inventory unit.outline)) : unit.Confines (bases unit tables)
  importsBlind (unit : SourceUnit α) {tables others : SymbolTables}
    (modules : tables.moduleFile? = others.moduleFile?)
    (paths : tables.fileModules = others.fileModules) : imports unit tables = imports unit others

/-- Imports leave alone which modules and files there are. -/
theorem Step.AllSuit.after_imports {family : Family} {steps : List Step}
    (suits : AllSuit family .imports steps) (tables : SymbolTables) :
    (tables.after steps).moduleFile? = tables.moduleFile? ∧
      (tables.after steps).fileModules = tables.fileModules := by
  constructor
  · funext module
    refine SymbolTables.look_eq_of_no_hit tables (fun tables => tables.moduleFile? module)
      (fun tables entry => tables.moduleFile?_record entry module) fun entry member => ?_
    have held := suits.entry member
    cases entry <;> first | rfl | cases held
  · refine Std.ExtTreeMap.ext_getElem? fun path => ?_
    refine SymbolTables.look_eq_of_no_hit tables (fun tables => tables.fileModules[path]?)
      (fun tables entry => tables.fileModules_record entry path) fun entry member => ?_
    have held := suits.entry member
    cases entry <;> first | rfl | cases held

namespace ConfinedFrontEnd

section Imports

variable {α : Type} {frontends : Frontends} (front : ConfinedFrontEnd α)
  {units : List (SourceUnit α)}

/-- The imports of all units see the tables as the definitions left them. -/
theorem steps_imports (suitable : frontends.Suitable)
    (scripts : frontends front.family = front.scripts units) :
    frontends.steps front.family .imports = units.flatMap fun unit =>
      front.imports unit (frontends.tablesAfter front.family Pass.imports.earlier) := by
  let tables := frontends.tablesAfter front.family Pass.imports.earlier
  have suits : ∀ unit ∈ units, AllSuit front.family .imports (front.imports unit tables) := by
    intro unit member
    refine suitable front.family .imports (front.imports unit) ?_ tables
    rw [scripts]
    exact List.mem_map_of_mem member
  rw [Frontends.steps, scripts]
  refine Script.stepsFrom_map tables
    (fun seen => seen.moduleFile? = tables.moduleFile? ∧ seen.fileModules = tables.fileModules)
    ⟨rfl, rfl⟩ ?_ ?_
  · intro unit _ seen alike
    exact front.importsBlind unit alike.1 alike.2
  · intro unit member seen alike
    obtain ⟨modules, paths⟩ := (suits unit member).after_imports seen
    exact ⟨modules.trans alike.1, paths.trans alike.2⟩

end Imports

section Reordering

variable {α : Type} {frontends others : Frontends} (front : ConfinedFrontEnd α)
  {units reordered : List (SourceUnit α)}

/-- Two front-ends over the same units in different orders, each unit with a module and a path of
its own and with types whose names have no dots. -/
structure Reordered (frontends others : Frontends) (units reordered : List (SourceUnit α)) :
    Prop where
  suitable : frontends.Suitable
  suitableOthers : others.Suitable
  scripts : frontends front.family = front.scripts units
  scriptsOthers : others front.family = front.scripts reordered
  same : units.Perm reordered
  modules : ∀ unit ∈ units, ∀ other ∈ units, unit ≠ other → unit.module ≠ other.module
  paths : ∀ unit ∈ units, ∀ other ∈ units, unit ≠ other → unit.path ≠ other.path
  plain : ∀ unit ∈ units, ∀ type ∈ (front.inventory unit.outline).types, Dotless type.name

variable {front} (reorder : front.Reordered frontends others units reordered)
include reorder

theorem Reordered.after_eq {part : SourceUnit α → List Step}
    (confined : ∀ unit ∈ units, unit.Confines (part unit)) (tables : SymbolTables) :
    tables.after (units.flatMap part) = tables.after (reordered.flatMap part) := by
  refine tables.after_flatMap_perm reorder.same
    fun one inUnits other alsoIn different entry here later there => ?_
  exact (confined one inUnits entry here).apart (confined other alsoIn later there)
    (reorder.modules one inUnits other alsoIn different)
    (reorder.paths one inUnits other alsoIn different)

theorem Reordered.tables_definitions :
    frontends.tablesAfter front.family Pass.definitions.earlier =
      others.tablesAfter front.family Pass.definitions.earlier := by
  have files {given : Frontends} {list : List (SourceUnit α)}
      (scripts : given front.family = front.scripts list) :
      given.tablesAfter front.family Pass.definitions.earlier =
        ({} : SymbolTables).after (list.flatMap SourceUnit.fileSteps) := by
    have after : given.tablesAfter front.family Pass.definitions.earlier =
      ({} : SymbolTables).after (Script.stepsFrom {} (given front.family .files)) := rfl
    rw [after, scripts]
    exact congrArg _ (Script.stepsFrom_fixed _ list SourceUnit.fileSteps)
  rw [files reorder.scripts, files reorder.scriptsOthers]
  exact reorder.after_eq (fun unit _ => unit.confines_fileSteps) _

theorem Reordered.tables_imports :
    frontends.tablesAfter front.family Pass.imports.earlier =
      others.tablesAfter front.family Pass.imports.earlier := by
  have after (given : Frontends) : given.tablesAfter front.family Pass.imports.earlier =
    (given.tablesAfter front.family Pass.definitions.earlier).after
      (given.steps front.family .definitions) := rfl
  rw [after, after, reorder.tables_definitions, front.steps_definitions reorder.scripts,
    front.steps_definitions reorder.scriptsOthers]
  exact reorder.after_eq (fun unit member => front.defineConfined (reorder.plain unit member)) _

theorem Reordered.tables_relations :
    frontends.tablesAfter front.family Pass.relations.earlier =
      others.tablesAfter front.family Pass.relations.earlier := by
  have after (given : Frontends) : given.tablesAfter front.family Pass.relations.earlier =
    (given.tablesAfter front.family Pass.imports.earlier).after
      (given.steps front.family .imports) := rfl
  rw [after, after, front.steps_imports reorder.suitable reorder.scripts,
    front.steps_imports reorder.suitableOthers reorder.scriptsOthers, reorder.tables_imports]
  exact reorder.after_eq (fun unit _ => front.importsConfined unit _) _

theorem Reordered.imports_perm :
    (edges (frontends.steps front.family .imports)).Perm
      (edges (others.steps front.family .imports)) := by
  rw [front.steps_imports reorder.suitable reorder.scripts,
    front.steps_imports reorder.suitableOthers reorder.scriptsOthers, reorder.tables_imports,
    edges_flatMap, edges_flatMap]
  exact reorder.same.flatMap_right _

theorem Reordered.relations_perm :
    (edges (frontends.steps front.family .relations)).Perm
      (edges (others.steps front.family .relations)) := by
  obtain ⟨_, taken⟩ := front.steps_relations reorder.suitable reorder.scripts
  obtain ⟨_, takenOthers⟩ := front.steps_relations reorder.suitableOthers reorder.scriptsOthers
  have known : ∀ unit ∈ units, unit.Known
      (frontends.tablesAfter front.family Pass.relations.earlier)
      (front.inventory unit.outline) := fun unit member =>
    front.known reorder.suitable reorder.scripts .nil member
  have bases := reorder.after_eq
    (fun unit member => front.basesConfined (reorder.plain unit member) (known unit member))
    (frontends.tablesAfter front.family Pass.relations.earlier)
  rw [taken, takenOthers, ← reorder.tables_relations, ← bases, edges_append, edges_append,
    edges_flatMap, edges_flatMap, edges_flatMap, edges_flatMap]
  exact (reorder.same.flatMap_right _).append (reorder.same.flatMap_right _)

end Reordering

end ConfinedFrontEnd

theorem Python.importEffects_own {tables : SymbolTables} {module : String}
    {imported : Python.Import} {home localName : String} {binding : ImportBinding}
    (member : .bind home localName binding ∈ Python.importEffects tables module imported) :
    home = module := by
  cases imported with
  | module dotted given =>
      simp only [Python.importEffects, List.mem_cons, reduceCtorEq, false_or] at member
      cases given with
      | some name =>
          cases List.mem_singleton.mp member
          rfl
      | none =>
          rcases List.mem_cons.mp member with same | first
          · cases same
            rfl
          · obtain ⟨parts, _, same⟩ := Option.map_eq_some_iff.mp (Option.mem_toList.mp first)
            cases same
            rfl
  | names level origin names =>
      simp only [Python.importEffects] at member
      split at member
      · cases member
      · rcases List.mem_append.mp member with reaches | bound
        · rcases List.mem_append.mp reaches with submodule | itself
          · obtain ⟨id, _, same⟩ := List.mem_map.mp submodule
            cases same
          · split at itself
            · cases List.mem_singleton.mp itself
            · cases itself
        · obtain ⟨name, _, same⟩ := List.mem_map.mp bound
          cases same
          rfl

theorem Python.importEffects_congr {tables others : SymbolTables}
    (modules : tables.moduleFile? = others.moduleFile?) (module : String)
    (imported : Python.Import) :
    Python.importEffects tables module imported = Python.importEffects others module imported := by
  have exist : tables.hasModule = others.hasModule := by
    funext name
    simp only [SymbolTables.hasModule, modules]
  have located (dotted : String) :
      Python.locate? tables module dotted = Python.locate? others module dotted := by
    unfold Python.locate?
    rw [exist]
  have resolved (found : Option (String × Confidence)) (dotted : String) :
      Python.resolveModule tables found dotted = Python.resolveModule others found dotted := by
    unfold Python.resolveModule
    rw [modules]
  cases imported with
  | module dotted given => simp only [Python.importEffects, located, resolved]
  | names level origin names => simp only [Python.importEffects, located, resolved, modules]

def Python.confinedFrontEnd : ConfinedFrontEnd Python.Outline where
  toPlainFrontEnd := Python.frontEnd
  defineConfined := fun plain =>
    SourceUnit.confines_definitions (.flatMap fun _ _ => .cons trivial (.cons rfl .nil)) plain
  importsConfined := fun _ _ => SourceUnit.confines_imports Python.importEffects_own
  basesConfined := SourceUnit.confines_bases
  importsBlind := fun unit _ _ modules _ =>
    congrArg (importSteps unit.fileId []) (List.flatMap_congr fun imported _ =>
      Python.importEffects_congr modules unit.module imported)

theorem JavaScript.importEffects_congr {tables others : SymbolTables}
    (paths : tables.fileModules = others.fileModules) (unit : SourceUnit JavaScript.Outline)
    (imported : JavaScript.Import) :
    JavaScript.importEffects unit tables imported =
      JavaScript.importEffects unit others imported := by
  have exist : tables.hasFile = others.hasFile := by
    funext path
    simp only [SymbolTables.hasFile, SymbolTables.moduleOfFile?, paths]
  simp only [JavaScript.importEffects, JavaScript.relativeFile?, SymbolTables.moduleOfFile?,
    exist, paths]

theorem JavaScript.importEffects_own {unit : SourceUnit JavaScript.Outline} {tables : SymbolTables}
    {imported : JavaScript.Import} {home localName : String} {binding : ImportBinding}
    (member : .bind home localName binding ∈ JavaScript.importEffects unit tables imported) :
    home = unit.module := by
  simp only [JavaScript.importEffects, List.mem_cons, reduceCtorEq, false_or] at member
  obtain ⟨bound, _, same⟩ := List.mem_map.mp member
  cases same
  rfl

def JavaScript.confinedFrontEnd : ConfinedFrontEnd JavaScript.Outline where
  toPlainFrontEnd := JavaScript.frontEnd
  defineConfined := fun plain => SourceUnit.confines_definitions .nil plain
  importsConfined := fun _ _ => SourceUnit.confines_imports JavaScript.importEffects_own
  basesConfined := SourceUnit.confines_bases
  importsBlind := fun unit _ _ _ paths =>
    congrArg (importSteps unit.fileId []) (List.flatMap_congr fun imported _ =>
      JavaScript.importEffects_congr paths unit imported)

theorem ConfinedFrontEnd.reordered {α : Type} (front : ConfinedFrontEnd α)
    {outline : SourceFile → α}
    (scripts : ∀ files, frontendsOf files front.family =
      front.scripts (Frontends.units (moduleNames files) outline front.family files))
    (inventory : ∀ file : SourceFile,
      file.family = front.family → front.inventory (outline file) = file.inventory)
    {files others : List SourceFile} (same : files.Perm others)
    (distinct : (files.map (moduleNames files)).Nodup)
    (plain : ∀ file ∈ files, ∀ type ∈ file.inventory.types, Dotless type.name) :
    front.Reordered (frontendsOf files) (frontendsOf others)
      (Frontends.units (moduleNames files) outline front.family files)
      (Frontends.units (moduleNames others) outline front.family others) := by
  have modules : ∀ unit ∈ Frontends.units (moduleNames files) outline front.family files,
      ∀ other ∈ Frontends.units (moduleNames files) outline front.family files,
        unit ≠ other → unit.module ≠ other.module := by
    intro unit inUnits other alsoIn different equal
    obtain ⟨file, listed, _, rfl⟩ := Frontends.mem_units inUnits
    obtain ⟨rival, there, _, rfl⟩ := Frontends.mem_units alsoIn
    cases List.inj_on_of_nodup_map distinct listed there equal
    exact different rfl
  refine ⟨frontendsOf_suitable files, frontendsOf_suitable others, scripts files, scripts others,
    ?_, modules, ?_, ?_⟩
  · have renamed : Frontends.units (moduleNames others) outline front.family others =
        Frontends.units (moduleNames files) outline front.family others := by
      refine List.map_congr_left fun file member => ?_
      rw [moduleNames_perm same (same.mem_iff.mpr (List.mem_filter.mp member).1)]
    rw [renamed]
    exact (same.filter _).map _
  · intro unit inUnits other alsoIn different equal
    refine modules unit inUnits other alsoIn different ?_
    obtain ⟨file, listed, _, rfl⟩ := Frontends.mem_units inUnits
    obtain ⟨rival, there, _, rfl⟩ := Frontends.mem_units alsoIn
    simp only at equal
    rw [moduleNames_of_mem listed, moduleNames_of_mem there, equal]
  · intro unit member type inside
    obtain ⟨file, listed, own, rfl⟩ := Frontends.mem_units member
    rw [inventory file own] at inside
    exact plain file listed type inside

/-- Whether an edge says that one thing refers to another. -/
def GraphEdge.isReference (edge : GraphEdge) : Bool := edge.kind != .contains

theorem ConfinedFrontEnd.Reordered.links_perm {α : Type} {frontends others : Frontends}
    {front : ConfinedFrontEnd α} {units reordered : List (SourceUnit α)}
    (reorder : front.Reordered frontends others units reordered) (pass : Pass) :
    ((frontends.links front.family pass).filter GraphEdge.isReference).Perm
      ((others.links front.family pass).filter GraphEdge.isReference) := by
  have asked (given : Frontends) : (given.links front.family pass).filter GraphEdge.isReference =
      (edges (given.steps front.family pass)).filter GraphEdge.isReference :=
    Frontends.filter_links fun edge wanted => by simpa [GraphEdge.isReference] using wanted
  have silent {given : Frontends} (suitable : given.Suitable)
      (early : ∀ kind, kind ≠ .contains → pass.links kind = false) :
      (given.links front.family pass).filter GraphEdge.isReference = [] :=
    Frontends.filter_links_eq_nil suitable fun edge wanted =>
      early edge.kind (by simpa [GraphEdge.isReference] using wanted)
  cases pass with
  | files =>
      rw [silent reorder.suitable (by intro kind; cases kind <;> decide),
        silent reorder.suitableOthers (by intro kind; cases kind <;> decide)]
  | definitions =>
      rw [silent reorder.suitable (by intro kind; cases kind <;> decide),
        silent reorder.suitableOthers (by intro kind; cases kind <;> decide)]
  | imports =>
      rw [asked, asked]
      exact reorder.imports_perm.filter _
  | relations =>
      rw [asked, asked]
      exact reorder.relations_perm.filter _

/-- Where every file has a namespace of its own, the imports, bases, calls and blueprint
registrations of a build are the same for every order of the files. -/
theorem buildGraph_references_perm {files others : List SourceFile} (same : files.Perm others)
    (families : ∀ file ∈ files, file.family = .python ∨ file.family = .javaScript)
    (distinct : (files.map (moduleNames files)).Nodup)
    (plain : ∀ file ∈ files, ∀ type ∈ file.inventory.types, Dotless type.name) :
    ∃ result reordered, buildGraph files = .ok result ∧ buildGraph others = .ok reordered ∧
      (result.edges.filter GraphEdge.isReference).Perm
        (reordered.edges.filter GraphEdge.isReference) := by
  have python := Python.confinedFrontEnd.reordered (fun files => Python.scripts_frontEnd _)
    (fun _ own => SourceFile.inventory_python own) same distinct plain
  have javaScript := JavaScript.confinedFrontEnd.reordered
    (fun files => JavaScript.scripts_frontEnd _)
    (fun _ own => SourceFile.inventory_javaScript own) same distinct plain
  have noSwift {list : List SourceFile} (inside : ∀ file ∈ list, file ∈ files) :
      filesOf .swift list = [] := by
    refine List.filter_eq_nil_iff.mpr fun file member => ?_
    rcases families file (inside file member) with own | own <;> simp [own]
  obtain ⟨result, built, drawn⟩ := buildGraph_edges files
  obtain ⟨reordered, rebuilt, redrawn⟩ := buildGraph_edges others
  refine ⟨result, reordered, built, rebuilt, ?_⟩
  rw [drawn, redrawn, List.filter_flatMap, List.filter_flatMap]
  refine .flatMap_left _ fun pass _ => ?_
  simp only [links_eq_nil (noSwift fun file member => member),
    links_eq_nil (noSwift fun file member => same.mem_iff.mpr member), List.append_nil,
    List.filter_append]
  exact (python.links_perm pass).append (javaScript.links_perm pass)

/-- A class whose base is declared in another file. -/
def derivedModule : SourceFile where
  path := "a.py"
  language := .python
  text := "class A(B): pass"
  tree := some (.plain "module" none 0 16 [.plain "class_definition" none 0 16
    [.plain "identifier" (some "name") 6 7 [],
     .plain "argument_list" (some "superclasses") 7 10 [.plain "identifier" none 8 9 []],
     .plain "block" (some "body") 12 16 []]])

def baseModule : SourceFile where
  path := "b.py"
  language := .python
  text := "class B: pass"
  tree := some (.plain "module" none 0 13 [.plain "class_definition" none 0 13
    [.plain "identifier" (some "name") 6 7 [], .plain "block" (some "body") 9 13 []]])

theorem buildGraph_references_perm_forward :
    ∃ result reordered, buildGraph [derivedModule, baseModule] = .ok result ∧
      buildGraph [baseModule, derivedModule] = .ok reordered ∧
      result.edges.filter GraphEdge.isReference =
        [⟨"symbol:a.A", "symbol:b.B", .inherits, .medium⟩] ∧
      (result.edges.filter GraphEdge.isReference).Perm
        (reordered.edges.filter GraphEdge.isReference) := by
  obtain ⟨result, reordered, built, rebuilt, same⟩ := buildGraph_references_perm
    (.swap baseModule derivedModule []) (by decide) (by decide +kernel) (by decide +kernel)
  have drawn : (buildGraph [derivedModule, baseModule]).toOption.map
      (fun graph => graph.edges.filter GraphEdge.isReference) =
        some [⟨"symbol:a.A", "symbol:b.B", .inherits, .medium⟩] := by decide +kernel
  rw [built] at drawn
  exact ⟨result, reordered, built, rebuilt, Option.some.inj drawn, same⟩

end SourceAtlas
