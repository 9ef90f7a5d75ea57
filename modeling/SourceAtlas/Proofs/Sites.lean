/- The places where calls and bases stand: each declaration of a file with the id under which it is
registered, and what the last pass draws for it as long as the tables know it under that id. -/
import Mathlib.Algebra.BigOperators.Group.List.Lemmas
import Mathlib.Algebra.GroupWithZero.Nat
import SourceAtlas.Proofs.Relations

namespace SourceAtlas

/-- A type as far as references stand in it: the number of its bases, and its methods with the
number of calls in each. -/
structure TypeInventory where
  name : String
  bases : Nat
  methods : List (String × Nat)
deriving DecidableEq, Repr

/-- The functions of a file with the number of calls in each, and its types. -/
structure Inventory where
  functions : List (String × Nat)
  types : List TypeInventory
deriving DecidableEq, Repr

def Inventory.calls (inventory : Inventory) : Nat :=
  (inventory.functions.map Prod.snd).sum +
    (inventory.types.map fun type => (type.methods.map Prod.snd).sum).sum

def Inventory.bases (inventory : Inventory) : Nat := (inventory.types.map TypeInventory.bases).sum

/-- Functions and classes as an inventory lists them. -/
def Inventory.listing {β γ : Type} (functions : List β) (classes : List γ)
    (declaration : β → Declaration) (calls : β → Nat) (type : γ → Declaration) (bases : γ → Nat)
    (methods : γ → List β) : Inventory where
  functions := functions.map fun function => ((declaration function).name, calls function)
  types := classes.map fun cls =>
    { name := (type cls).name
      bases := bases cls
      methods := (methods cls).map fun method => ((declaration method).name, calls method) }

def Python.Outline.inventory (outline : Python.Outline) : Inventory :=
  .listing outline.functions outline.classes Function.declaration (·.calls.length)
    Class.declaration (·.bases.length) Class.methods

def JavaScript.Outline.inventory (outline : JavaScript.Outline) : Inventory :=
  .listing outline.functions outline.classes Function.declaration (·.calls.length)
    Class.declaration (·.bases.length) Class.methods

def Swift.TypeDeclaration.inventory (type : Swift.TypeDeclaration) : TypeInventory where
  name := type.declaration.name
  bases := type.bases.length
  methods := type.methods.map fun method => (method.declaration.name, method.calls.length)

def Swift.Outline.inventory (outline : Swift.Outline) : Inventory where
  functions := outline.functions.map fun function =>
    (function.declaration.name, function.calls.length)
  types := outline.types.map Swift.TypeDeclaration.inventory

/-- The declarations of a file, read as its family does. -/
def SourceFile.inventory (file : SourceFile) : Inventory :=
  match file.family with
  | .python => (Python.Outline.ofFile file).inventory
  | .javaScript => (JavaScript.Outline.ofFile file).inventory
  | .swift => (Swift.Outline.ofFile file).inventory

theorem SourceFile.inventory_python {file : SourceFile} (own : file.family = .python) :
    (Python.Outline.ofFile file).inventory = file.inventory := by
  rw [SourceFile.inventory, own]

theorem SourceFile.inventory_javaScript {file : SourceFile} (own : file.family = .javaScript) :
    (JavaScript.Outline.ofFile file).inventory = file.inventory := by
  rw [SourceFile.inventory, own]

theorem SourceFile.inventory_swift {file : SourceFile} (own : file.family = .swift) :
    (Swift.Outline.ofFile file).inventory = file.inventory := by
  rw [SourceFile.inventory, own]

/-- A declaration with the id of the type that it is a member of, if any, its own name and id, and
the number of references in it. -/
structure Site where
  owner : Option String
  name : String
  id : String
  records : Nat
deriving DecidableEq, Repr

namespace Site

/-- One source for each reference. -/
def sources (site : Site) : List String := List.replicate site.records site.id

/-- Among some entries is one of the declaration under its id. -/
def Registered (entries : List Registration) (site : Site) : Prop :=
  match site.owner with
  | none => ∃ module isType, .symbol module site.name site.id isType ∈ entries
  | some typeId => .method typeId site.name site.id ∈ entries

theorem length_sources (sites : List Site) :
    (sites.flatMap sources).length = (sites.map Site.records).sum := by
  simp only [List.length_flatMap, sources, List.length_replicate]

end Site

namespace SourceUnit

variable {α : Type} (unit : SourceUnit α)

def functionSite (function : String × Nat) : Site where
  owner := none
  name := function.1
  id := unit.symbolId function.1
  records := function.2

/-- A method of a type that may be declared in another module than its members. -/
def methodSite (ownerId ownerName : String) (method : String × Nat) : Site where
  owner := some ownerId
  name := method.1
  id := unit.memberId ownerName method.1
  records := method.2

end SourceUnit

def TypeInventory.site (ownerId : String) (type : TypeInventory) : Site where
  owner := none
  name := type.name
  id := ownerId
  records := type.bases

/-- The places of all calls and of all bases in the files of a family. -/
structure Survey where
  calls : List Site
  bases : List Site

def EdgeKind.isBase (kind : EdgeKind) : Bool := kind == .inherits

/-- Steps that draw edges of certain kinds from given nodes, in order. -/
structure Step.Draws (kinds : EdgeKind → Bool) (steps : List Step) (sources : List String) :
    Prop where
  sources : (edges steps).map GraphEdge.source = sources
  kinds : ∀ edge ∈ edges steps, kinds edge.kind = true

namespace Step.Draws

variable {kinds : EdgeKind → Bool} {first second : List Step} {sources more : List String}

theorem nil : Draws kinds [] [] := ⟨rfl, by simp [edges]⟩

theorem append (start : Draws kinds first sources) (rest : Draws kinds second more) :
    Draws kinds (first ++ second) (sources ++ more) := by
  refine ⟨?_, ?_⟩
  · rw [edges_append, List.map_append, start.sources, rest.sources]
  · rw [edges_append]
    exact List.forall_mem_append.mpr ⟨start.kinds, rest.kinds⟩

theorem flatMap {α : Type} {list : List α} {part : α → List Step} {origins : α → List String}
    (each : ∀ item ∈ list, Draws kinds (part item) (origins item)) :
    Draws kinds (list.flatMap part) (list.flatMap origins) := by
  induction list with
  | nil => exact nil
  | cons item rest ih =>
      exact append (each item (by simp)) (ih fun other member => each other (by simp [member]))

theorem each {α : Type} {list : List α} {part : α → List Step} {source : String}
    (one : ∀ item ∈ list, Draws kinds (part item) [source]) :
    Draws kinds (list.flatMap part) (List.replicate list.length source) := by
  induction list with
  | nil => exact nil
  | cons item rest ih =>
      exact append (one item (by simp)) (ih fun other member => one other (by simp [member]))

theorem link {kind : EdgeKind} (wanted : kinds kind = true) (source : String)
    (resolution : Resolution) :
    Draws kinds (Step.link source resolution kind) [source] := by
  obtain ⟨target, confidence⟩ := resolution
  cases target with
  | node id => exact ⟨rfl, by simpa [Step.link, edges, edge?, Resolution.edge] using wanted⟩
  | external name => exact ⟨rfl, by simpa [Step.link, edges, edge?, Resolution.edge] using wanted⟩

theorem bases {α : Type} (typeId : String) (list : List α) (resolve : α → Resolution) :
    Draws EdgeKind.isBase (baseSteps typeId (list.map resolve))
      (List.replicate list.length typeId) := by
  have registers : Draws EdgeKind.isBase
      [.register (.bases typeId ((list.map resolve).filterMap Resolution.nodeId?))] [] :=
    ⟨rfl, by simp [edges, edge?]⟩
  have links : Draws EdgeKind.isBase
      ((list.map resolve).flatMap fun resolution => Step.link typeId resolution .inherits)
      (List.replicate (list.map resolve).length typeId) :=
    each fun resolution _ => link rfl typeId resolution
  rw [List.length_map] at links
  rw [← List.append_nil (List.replicate _ _)]
  exact append links registers

/-- A declaration that the tables know is not passed over. -/
theorem known {id? : Option String} {id : String} {part : String → List Step} :
    id? = some id → Draws kinds (part id) sources → Draws kinds (match id? with
      | some id => part id
      | none => []) sources := by
  intro found draws
  rw [found]
  exact draws

end Step.Draws

section ByName

variable {α : Type}

/-- The entries of all declarations of a unit whose members live in its own types. -/
structure SourceUnit.Declared (unit : SourceUnit α) (entries : List Registration)
    (inventory : Inventory) : Prop where
  functions : ∀ function ∈ inventory.functions,
    .symbol unit.module function.1 (unit.symbolId function.1) false ∈ entries
  types : ∀ type ∈ inventory.types,
    .symbol unit.module type.name (unit.symbolId type.name) true ∈ entries
  methods : ∀ type ∈ inventory.types, ∀ method ∈ type.methods,
    .method (unit.symbolId type.name) method.1 (unit.memberId type.name method.1) ∈ entries

theorem SourceUnit.Declared.mono {unit : SourceUnit α} {entries more : List Registration}
    {inventory : Inventory} (declared : unit.Declared entries inventory) (grows : entries ⊆ more) :
    unit.Declared more inventory :=
  ⟨fun function member => grows (declared.functions function member),
    fun type member => grows (declared.types type member),
    fun type member method inside => grows (declared.methods type member method inside)⟩

structure SourceUnit.Known (unit : SourceUnit α) (tables : SymbolTables) (inventory : Inventory) :
    Prop where
  functions : ∀ function ∈ inventory.functions,
    tables.local? unit.module function.1 = some (unit.symbolId function.1)
  types : ∀ type ∈ inventory.types,
    tables.classIn? unit.module type.name = some (unit.symbolId type.name)
  methods : ∀ type ∈ inventory.types, ∀ method ∈ type.methods,
    tables.method? (unit.symbolId type.name) method.1 = some (unit.memberId type.name method.1)

theorem SourceUnit.Declared.known {unit : SourceUnit α} {family : Family} {steps : List Step}
    {inventory : Inventory} (declared : unit.Declared (Step.entries steps) inventory)
    (regular : Regular family steps) (plain : family ≠ .swift) :
    unit.Known (({} : SymbolTables).after steps) inventory :=
  ⟨fun function member => local?_after regular (declared.functions function member),
    fun type member => classIn?_after regular (declared.types type member),
    fun type member method inside =>
      method?_after regular plain (declared.methods type member method inside)⟩

/-- The places in a unit whose declarations are all found by name. -/
def SourceUnit.survey (unit : SourceUnit α) (inventory : Inventory) : Survey where
  calls := inventory.functions.map unit.functionSite ++ inventory.types.flatMap fun type =>
    type.methods.map (unit.methodSite (unit.symbolId type.name) type.name)
  bases := inventory.types.map fun type => type.site (unit.symbolId type.name)

theorem SourceUnit.Declared.registered {unit : SourceUnit α} {entries : List Registration}
    {inventory : Inventory} (declared : unit.Declared entries inventory) :
    ∀ site ∈ (unit.survey inventory).calls ++ (unit.survey inventory).bases,
      site.Registered entries := by
  intro site member
  rcases List.mem_append.mp member with call | base
  · rcases List.mem_append.mp call with plain | inType
    · obtain ⟨function, listed, rfl⟩ := List.mem_map.mp plain
      exact ⟨unit.module, false, declared.functions function listed⟩
    · obtain ⟨type, there, inside⟩ := List.mem_flatMap.mp inType
      obtain ⟨method, listed, rfl⟩ := List.mem_map.mp inside
      exact declared.methods type there method listed
  · obtain ⟨type, there, rfl⟩ := List.mem_map.mp base
    exact ⟨unit.module, true, declared.types type there⟩

theorem SourceUnit.sum_survey (unit : SourceUnit α) (inventory : Inventory) :
    ((unit.survey inventory).calls.map Site.records).sum = inventory.calls ∧
      ((unit.survey inventory).bases.map Site.records).sum = inventory.bases := by
  constructor
  · simp only [SourceUnit.survey, List.map_append, List.sum_append, List.map_map, List.flatMap_def,
      List.map_flatten, List.sum_flatten, Function.comp_def]
    rfl
  · simp only [SourceUnit.survey, List.map_map]
    rfl

end ByName

open Step

section Entries

variable {α β : Type} (unit : SourceUnit α)

theorem SourceUnit.entries_functions (functions : List β) (declaration : β → Declaration) :
    entries (functions.flatMap fun function => unit.symbolSteps (declaration function) .function) =
      functions.map fun function =>
        .symbol unit.module (declaration function).name (unit.symbolId (declaration function).name)
          false := by
  rw [entries_flatMap, List.map_eq_flatMap]
  rfl

theorem SourceUnit.entries_methods (ownerId ownerName : String) (methods : List β)
    (declaration : β → Declaration) :
    entries (methods.flatMap fun method =>
        unit.methodSteps ownerId ownerName (declaration method)) =
      methods.map fun method =>
        .method ownerId (declaration method).name
          (unit.memberId ownerName (declaration method).name) := by
  rw [entries_flatMap, List.map_eq_flatMap]
  rfl

variable {γ δ ε : Type} {functions : List β} {classes : List γ} {declaration : β → Declaration}
  {type : γ → Declaration} {methods : γ → List β} {calls : β → List δ} {bases : γ → List ε}

/-- The steps that define classes with their methods, and functions, declare all of them. -/
theorem SourceUnit.declared_of_steps (before : List Step) :
    unit.Declared
      (entries (before ++ (classes.flatMap fun cls => unit.symbolSteps (type cls) .class ++
        (methods cls).flatMap fun method =>
          unit.methodSteps (unit.symbolId (type cls).name) (type cls).name (declaration method)) ++
        functions.flatMap fun function => unit.symbolSteps (declaration function) .function))
      (.listing functions classes declaration (fun function => (calls function).length) type
        (fun cls => (bases cls).length) methods) := by
  simp only [entries_append, entries_flatMap classes, unit.entries_functions functions declaration]
  refine ⟨?_, ?_, ?_⟩
  · intro function member
    obtain ⟨function, listed, rfl⟩ := List.mem_map.mp member
    exact List.mem_append_right _ (List.mem_map.mpr ⟨function, listed, rfl⟩)
  · intro type member
    obtain ⟨cls, listed, rfl⟩ := List.mem_map.mp member
    refine List.mem_append_left _ (List.mem_append_right _ (List.mem_flatMap.mpr ⟨cls, listed, ?_⟩))
    exact List.mem_append_left _ List.mem_cons_self
  · intro type member method inside
    obtain ⟨cls, listed, rfl⟩ := List.mem_map.mp member
    obtain ⟨method, there, rfl⟩ := List.mem_map.mp inside
    refine List.mem_append_left _ (List.mem_append_right _ (List.mem_flatMap.mpr ⟨cls, listed, ?_⟩))
    rw [unit.entries_methods]
    exact List.mem_append_right _ (List.mem_map.mpr ⟨method, there, rfl⟩)

variable {unit} {tables : SymbolTables} {resolve : ε → Resolution}
  {callSteps : Option String → String → δ → List Step}

/-- Each base of a known class gives one edge from the class. -/
theorem SourceUnit.Known.bases_draw
    (known : unit.Known tables (.listing functions classes declaration
      (fun function => (calls function).length) type (fun cls => (bases cls).length) methods)) :
    Draws EdgeKind.isBase
      (classes.flatMap fun cls =>
        match tables.classIn? unit.module (type cls).name with
        | some classId => baseSteps classId ((bases cls).map resolve)
        | none => [])
      ((unit.survey (.listing functions classes declaration
        (fun function => (calls function).length) type
        (fun cls => (bases cls).length) methods)).bases.flatMap Site.sources) := by
  simp only [SourceUnit.survey, Inventory.listing, List.map_map, List.flatMap_map]
  refine .flatMap fun cls listed => .known (known.types _ (List.mem_map_of_mem listed)) ?_
  exact .bases _ (bases cls) _

/-- Each call in a known function or method gives one edge from it, if the steps for one call do. -/
theorem SourceUnit.Known.calls_draw
    (known : unit.Known tables (.listing functions classes declaration
      (fun function => (calls function).length) type (fun cls => (bases cls).length) methods))
    (one : ∀ currentClass source call,
      Draws EdgeKind.isCall (callSteps currentClass source call) [source]) :
    Draws EdgeKind.isCall
      ((functions.flatMap fun function =>
        match tables.local? unit.module (declaration function).name with
        | some id => (calls function).flatMap (callSteps none id)
        | none => []) ++
        classes.flatMap fun cls =>
          match tables.classIn? unit.module (type cls).name with
          | some classId => (methods cls).flatMap fun method =>
            match tables.method? classId (declaration method).name with
            | some id => (calls method).flatMap (callSteps (some classId) id)
            | none => []
          | none => [])
      ((unit.survey (.listing functions classes declaration
        (fun function => (calls function).length) type
        (fun cls => (bases cls).length) methods)).calls.flatMap Site.sources) := by
  simp only [SourceUnit.survey, Inventory.listing, List.flatMap_append, List.flatMap_assoc,
    List.map_map, List.flatMap_map]
  refine .append (.flatMap fun function listed =>
    .known (known.functions _ (List.mem_map_of_mem listed)) ?_)
    (.flatMap fun cls listed => .known (known.types _ (List.mem_map_of_mem listed)) ?_)
  · exact .each fun call _ => one none _ call
  · refine .flatMap fun method inside => ?_
    refine .known (known.methods _ (List.mem_map_of_mem listed) _ (List.mem_map_of_mem inside)) ?_
    exact .each fun call _ => one _ _ call

end Entries

theorem Python.callSteps_draws (unit : SourceUnit Python.Outline) (tables : SymbolTables)
    (currentClass : Option String) (source : String) (call : Python.Call) :
    Draws EdgeKind.isCall (Python.callSteps unit tables currentClass source call) [source] := by
  unfold Python.callSteps
  split
  · exact ⟨rfl, by simp [edges, edge?, EdgeKind.isCall]⟩
  · exact .link rfl source _

/-- A front-end that finds all declarations by name, since the members of a type stand in its own
file: its scripts for each unit, and the laws that they obey. -/
structure PlainFrontEnd (α : Type) where
  family : Family
  inventory : α → Inventory
  define : SourceUnit α → List Step
  imports : SourceUnit α → Script
  bases : SourceUnit α → Script
  calls : SourceUnit α → Script
  plain : family ≠ .swift
  declares (unit : SourceUnit α) : unit.Declared (entries (define unit)) (inventory unit.outline)
  basesBlind (unit : SourceUnit α) (tables : SymbolTables) (known : TextMap (List String)) :
    bases unit { tables with bases := known } = bases unit tables
  callsOnly (unit : SourceUnit α) (tables : SymbolTables) : Each IsCall (calls unit tables)
  basesDraw {unit : SourceUnit α} {tables : SymbolTables}
    (known : unit.Known tables (inventory unit.outline)) :
    Draws EdgeKind.isBase (bases unit tables)
      ((unit.survey (inventory unit.outline)).bases.flatMap Site.sources)
  callsDraw {unit : SourceUnit α} {tables : SymbolTables}
    (known : unit.Known tables (inventory unit.outline)) :
    Draws EdgeKind.isCall (calls unit tables)
      ((unit.survey (inventory unit.outline)).calls.flatMap Site.sources)

def PlainFrontEnd.scripts {α : Type} (front : PlainFrontEnd α) (units : List (SourceUnit α))
    (pass : Pass) :
    List Script :=
  pass.scripts units (units.map fun unit => Script.fixed (front.define unit)) front.imports
    front.bases front.calls

namespace PlainFrontEnd

variable {α : Type} {frontends : Frontends} (front : PlainFrontEnd α) {units : List (SourceUnit α)}

theorem steps_definitions (scripts : frontends front.family = front.scripts units) :
    frontends.steps front.family .definitions = units.flatMap front.define := by
  rw [Frontends.steps, scripts]
  exact Script.stepsFrom_fixed _ units front.define

theorem declared (scripts : frontends front.family = front.scripts units) {unit : SourceUnit α}
    (member : unit ∈ units) :
    unit.Declared (entries (frontends.steps front.family .definitions))
      (front.inventory unit.outline) := by
  refine (front.declares unit).mono fun entry inside => ?_
  rw [front.steps_definitions scripts, entries_flatMap]
  exact List.mem_flatMap.mpr ⟨unit, member, inside⟩

theorem known (suitable : frontends.Suitable)
    (scripts : frontends front.family = front.scripts units) {steps : List Step}
    (suits : AllSuit front.family .relations steps) {unit : SourceUnit α} (member : unit ∈ units) :
    unit.Known ((frontends.tablesAfter front.family Pass.relations.earlier).after steps)
      (front.inventory unit.outline) := by
  obtain ⟨history, regular, grows, same⟩ := Frontends.relations_tables suitable suits
  rw [same]
  exact ((front.declared scripts member).mono grows).known regular front.plain

theorem steps_relations (suitable : frontends.Suitable)
    (scripts : frontends front.family = front.scripts units) :
    let tables := frontends.tablesAfter front.family Pass.relations.earlier
    let bases := units.flatMap fun unit => front.bases unit tables
    AllSuit front.family .relations bases ∧
      frontends.steps front.family .relations =
        bases ++ units.flatMap fun unit => front.calls unit (tables.after bases) :=
  Frontends.steps_relations suitable (congrFun scripts .relations) front.basesBlind front.callsOnly

end PlainFrontEnd

def Python.frontEnd : PlainFrontEnd Python.Outline where
  family := .python
  inventory := Python.Outline.inventory
  define := Python.definitionSteps
  imports := Python.importScript
  bases := Python.baseScript
  calls := Python.callScript
  plain := by decide
  declares := fun unit => unit.declared_of_steps _
  basesBlind := fun _ _ _ => rfl
  callsOnly := Python.callScript_isCall
  basesDraw := fun known => known.bases_draw
  callsDraw := fun known => known.calls_draw (Python.callSteps_draws _ _)

theorem Python.scripts_frontEnd (units : List (SourceUnit Python.Outline)) :
    Python.scripts units = Python.frontEnd.scripts units :=
  funext (Python.scripts_eq units)

def JavaScript.frontEnd : PlainFrontEnd JavaScript.Outline where
  family := .javaScript
  inventory := JavaScript.Outline.inventory
  define := JavaScript.definitionSteps
  imports := JavaScript.importScript
  bases := JavaScript.baseScript
  calls := JavaScript.callScript
  plain := by decide
  declares := fun unit => unit.declared_of_steps []
  basesBlind := fun _ _ _ => rfl
  callsOnly := JavaScript.callScript_isCall
  basesDraw := fun known => known.bases_draw
  callsDraw := fun {unit tables} known => known.calls_draw fun currentClass source callee =>
    .link (show EdgeKind.isCall .calls = true from rfl) source
      (JavaScript.resolveCall tables unit.module currentClass callee)

theorem JavaScript.scripts_frontEnd (units : List (SourceUnit JavaScript.Outline)) :
    JavaScript.scripts units = JavaScript.frontEnd.scripts units :=
  funext (JavaScript.scripts_eq units)

end SourceAtlas
