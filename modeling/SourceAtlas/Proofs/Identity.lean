/- The ids of declarations. They are dotted names, so a file in a directory and a type of a module
with the directory's name may both own the same one: then, and only then, files with namespaces of
their own share an id. -/
import SourceAtlas.Proofs.Containment
import SourceAtlas.Proofs.Order

namespace SourceAtlas

open Step

/-- The module and the id of a declared node. -/
def Step.declaration? : Step → Option (Option String × String)
  | .declare node => some (node.module, node.id)
  | _ => none

def Step.declarations (steps : List Step) : List (Option String × String) :=
  steps.filterMap declaration?

@[simp] theorem Step.declarations_append (first second : List Step) :
    declarations (first ++ second) = declarations first ++ declarations second :=
  List.filterMap_append

@[simp] theorem Step.declarations_flatMap {α : Type} (list : List α) (part : α → List Step) :
    declarations (list.flatMap part) = list.flatMap fun item => declarations (part item) :=
  List.filterMap_flatMap

/-- In the definitions pass, a node with the id is declared for a declaration in the file's
namespace. -/
def SourceFile.Registers (files : List SourceFile) (file : SourceFile) (id : String) : Prop :=
  (some (moduleNames files file), id) ∈
    declarations ((frontendsOf files).steps file.family .definitions)

instance (files : List SourceFile) (file : SourceFile) (id : String) :
    Decidable (file.Registers files id) :=
  inferInstanceAs (Decidable (_ ∈ _))

namespace Inventory

variable (inventory : Inventory) (module : String)

/-- The names of functions and types. -/
def topLevel : List String :=
  inventory.types.map TypeInventory.name ++ inventory.functions.map Prod.fst

/-- All names that are declared. -/
def names : List String :=
  inventory.topLevel ++ inventory.types.flatMap fun type => type.methods.map Prod.fst

/-- The qualified names of the declarations in a module. -/
def qualified : List String :=
  (inventory.types.flatMap fun type => Identifier.qualify module type.name ::
      type.methods.map fun method =>
        Identifier.qualify (Identifier.qualify module type.name) method.1) ++
    inventory.functions.map fun function => Identifier.qualify module function.1

variable {inventory module} {name : String}

theorem mem_qualified : name ∈ inventory.qualified module ↔
    (∃ top ∈ inventory.topLevel, Identifier.qualify module top = name) ∨
      ∃ type ∈ inventory.types, ∃ method ∈ type.methods.map Prod.fst,
        Identifier.qualify (Identifier.qualify module type.name) method = name := by
  simp only [qualified, topLevel, List.mem_append, List.mem_flatMap, List.mem_cons, List.mem_map]
  constructor
  · rintro (⟨type, listed, rfl | ⟨method, inside, rfl⟩⟩ | ⟨function, listed, rfl⟩)
    · exact .inl ⟨_, .inl ⟨type, listed, rfl⟩, rfl⟩
    · exact .inr ⟨type, listed, _, ⟨method, inside, rfl⟩, rfl⟩
    · exact .inl ⟨_, .inr ⟨function, listed, rfl⟩, rfl⟩
  · rintro (⟨_, ⟨type, listed, rfl⟩ | ⟨function, listed, rfl⟩, rfl⟩ |
      ⟨type, listed, _, ⟨method, inside, rfl⟩, rfl⟩)
    · exact .inl ⟨type, listed, .inl rfl⟩
    · exact .inr ⟨function, listed, rfl⟩
    · exact .inl ⟨type, listed, .inr ⟨method, inside, rfl⟩⟩

end Inventory

section Definitions

variable {α : Type} (unit : SourceUnit α)

/-- What a unit declares for the declarations of its file. -/
def SourceUnit.declares (inventory : Inventory) : List (Option String × String) :=
  (inventory.qualified unit.module).map fun name => (some unit.module, Identifier.symbol name)

theorem SourceUnit.declares_eq (inventory : Inventory) : unit.declares inventory =
    (inventory.types.flatMap fun type => (some unit.module, unit.symbolId type.name) ::
      type.methods.map fun method => (some unit.module, unit.memberId type.name method.1)) ++
    inventory.functions.map fun function => (some unit.module, unit.symbolId function.1) := by
  simp only [declares, Inventory.qualified, List.map_append, List.map_flatMap, List.map_cons,
    List.map_map]
  rfl

theorem SourceUnit.declarations_type {β : Type} (declaration : Declaration) (list : List β)
    (member : β → Declaration) :
    declarations (unit.symbolSteps declaration .class ++ list.flatMap fun method =>
      unit.methodSteps (unit.symbolId declaration.name) declaration.name (member method)) =
    (some unit.module, unit.symbolId declaration.name) ::
      list.map fun method => (some unit.module,
        unit.memberId declaration.name (member method).name) := by
  rw [declarations_append, declarations_flatMap, List.map_eq_flatMap]
  rfl

/-- Steps that define classes with their methods, and functions, declare just these. -/
theorem SourceUnit.declarations_of_steps {β γ δ ε : Type} (before : List Step) {functions : List β}
    {classes : List γ} {declaration : β → Declaration} {type : γ → Declaration}
    {methods : γ → List β} {calls : β → List δ} {bases : γ → List ε}
    (silent : declarations before = []) :
    declarations (before ++ (classes.flatMap fun cls => unit.symbolSteps (type cls) .class ++
        (methods cls).flatMap fun method =>
          unit.methodSteps (unit.symbolId (type cls).name) (type cls).name (declaration method)) ++
        functions.flatMap fun function => unit.symbolSteps (declaration function) .function) =
      unit.declares (.listing functions classes declaration
        (fun function => (calls function).length) type
        (fun cls => (bases cls).length) methods) := by
  rw [declarations_append, declarations_append, silent, List.nil_append, declarations_flatMap,
    declarations_flatMap, SourceUnit.declares_eq, Inventory.listing, List.flatMap_map, List.map_map]
  refine congrArg₂ _ (List.flatMap_congr fun cls _ => ?_) List.map_eq_flatMap.symm
  rw [SourceUnit.declarations_type, List.map_map]
  rfl

end Definitions

theorem Python.declarations_definitionSteps (unit : SourceUnit Python.Outline) :
    declarations (Python.definitionSteps unit) = unit.declares unit.outline.inventory := by
  have adopted : declarations (unit.outline.blueprints.flatMap (Python.blueprintSteps unit)) =
      [] := by
    rw [declarations_flatMap]
    exact List.flatMap_eq_nil_iff.mpr fun _ _ => rfl
  exact unit.declarations_of_steps _ adopted

theorem JavaScript.declarations_definitionSteps (unit : SourceUnit JavaScript.Outline) :
    declarations (JavaScript.definitionSteps unit) = unit.declares unit.outline.inventory :=
  unit.declarations_of_steps [] rfl

section Build

variable {files : List SourceFile}

theorem declarations_definitions {family : Family} (plain : family ≠ .swift) :
    declarations ((frontendsOf files).steps family .definitions) =
      (filesOf family files).flatMap fun file =>
      (file.inventory.qualified (moduleNames files file)).map fun name =>
        (some (moduleNames files file), Identifier.symbol name) := by
  cases family with
  | python =>
      have fixed : (frontendsOf files).steps .python .definitions = _ :=
        Script.stepsFrom_fixed _ _ _
      rw [fixed, declarations_flatMap, Frontends.units, List.flatMap_map]
      refine List.flatMap_congr fun file member => ?_
      rw [Python.declarations_definitionSteps,
        SourceFile.inventory_python (mem_filesOf.mp member).2]
      rfl
  | javaScript =>
      have fixed : (frontendsOf files).steps .javaScript .definitions = _ :=
        Script.stepsFrom_fixed _ _ _
      rw [fixed, declarations_flatMap, Frontends.units, List.flatMap_map]
      refine List.flatMap_congr fun file member => ?_
      rw [JavaScript.declarations_definitionSteps,
        SourceFile.inventory_javaScript (mem_filesOf.mp member).2]
      rfl
  | swift => exact absurd rfl plain

/-- Where namespaces are distinct, a file registers the ids of its own declarations. -/
theorem registers_iff (distinct : (files.map (moduleNames files)).Nodup) {file : SourceFile}
    (member : file ∈ files) (plain : file.family ≠ .swift) {id : String} :
    file.Registers files id ↔
      ∃ name ∈ file.inventory.qualified (moduleNames files file), Identifier.symbol name = id := by
  rw [SourceFile.Registers, declarations_definitions plain]
  constructor
  · intro declared
    obtain ⟨owner, listed, inside⟩ := List.mem_flatMap.mp declared
    obtain ⟨name, stated, same⟩ := List.mem_map.mp inside
    obtain ⟨modules, ids⟩ := Prod.mk.inj same
    cases List.inj_on_of_nodup_map distinct (mem_filesOf.mp listed).1 member
      (Option.some.inj modules)
    exact ⟨name, stated, ids⟩
  · rintro ⟨name, stated, rfl⟩
    refine List.mem_flatMap.mpr ⟨file, mem_filesOf.mpr ⟨member, rfl⟩, ?_⟩
    exact List.mem_map.mpr ⟨name, stated, rfl⟩

theorem registered_mem_nodes {result : GraphResult} (built : buildGraph files = .ok result)
    {file : SourceFile} {id : String} (registers : file.Registers files id) :
    id ∈ result.nodes := by
  obtain ⟨step, member, same⟩ := List.mem_filterMap.mp registers
  cases step with
  | declare node =>
      obtain ⟨-, rfl⟩ := Prod.mk.inj (Option.some.inj same)
      obtain ⟨outer, contains⟩ : ∃ outer, result.Contains outer node.id := by
        rcases frontendsOf_anchored files file.family _ member with ⟨root, -, asked⟩ |
          ⟨owner, -, asked⟩
        · exact ⟨root, contains_of_connect built asked⟩
        · exact ⟨owner, contains_of_connect built asked⟩
      obtain ⟨-, stored, found⟩ := contains.joined built
      exact Std.ExtTreeMap.mem_iff_isSome_getElem?.mpr
        (Option.isSome_iff_exists.mpr ⟨stored, found⟩)
  | _ => cases same

end Build

@[simp] theorem Identifier.qualify_right_inj {module name given : String} :
    Identifier.qualify module name = Identifier.qualify module given ↔ name = given := by
  refine ⟨fun same => ?_, congrArg _⟩
  unfold Identifier.qualify at same
  split at same
  · exact same
  · exact (String.append_right_inj _).mp same

namespace Inventory

/-- In an outer module there is a type by the full name of an inner module, and on it a method by
the name of a function or a type of the inner module, which then both have a qualified name. -/
def Covers (outer : Inventory) (module : String) (inner : Inventory) (home name : String) : Prop :=
  ∃ type ∈ outer.types, ∃ method ∈ type.methods.map Prod.fst,
    home = Identifier.qualify module type.name ∧ method ∈ inner.topLevel ∧
      Identifier.qualify home method = name

variable {inventory others : Inventory} {module other name : String}

theorem Covers.mem_qualified (covers : inventory.Covers module others other name) :
    name ∈ inventory.qualified module ∧ name ∈ others.qualified other := by
  obtain ⟨type, listed, method, inside, home, top, rfl⟩ := covers
  constructor
  · rw [home]
    exact Inventory.mem_qualified.mpr (.inr ⟨type, listed, method, inside, rfl⟩)
  · exact Inventory.mem_qualified.mpr (.inl ⟨method, top, rfl⟩)

theorem topLevel_subset : inventory.topLevel ⊆ inventory.names :=
  List.subset_append_left _ _

theorem name_mem_names {type : TypeInventory} (listed : type ∈ inventory.types) :
    type.name ∈ inventory.names :=
  topLevel_subset (List.mem_append_left _ (List.mem_map_of_mem listed))

theorem method_mem_names {type : TypeInventory} {method : String} (listed : type ∈ inventory.types)
    (inside : method ∈ type.methods.map Prod.fst) : method ∈ inventory.names :=
  List.mem_append_right _ (List.mem_flatMap.mpr ⟨type, listed, inside⟩)

theorem covers_of_qualify_eq {type : TypeInventory} {method top : String}
    (listed : type ∈ inventory.types) (inside : method ∈ type.methods.map Prod.fst)
    (stated : top ∈ others.topLevel) (plain : Dotless method) (alsoPlain : Dotless top)
    (same : Identifier.qualify other top =
      Identifier.qualify (Identifier.qualify module type.name) method) :
    inventory.Covers module others other (Identifier.qualify other top) := by
  have home := Identifier.module_eq_of_qualify alsoPlain plain same
  rw [← home, Identifier.qualify_right_inj] at same
  subst same
  exact ⟨type, listed, top, inside, home, stated, rfl⟩

/-- A dotted name has one reading as a module and what stands in it, but the module may be a
type. -/
theorem mem_qualified_both_iff (modules : module ≠ other)
    (plain : ∀ name ∈ inventory.names, Dotless name)
    (alsoPlain : ∀ name ∈ others.names, Dotless name) (name : String) :
    name ∈ inventory.qualified module ∧ name ∈ others.qualified other ↔
      inventory.Covers module others other name ∨ others.Covers other inventory module name := by
  constructor
  · rintro ⟨here, there⟩
    -- Two top-level names, or two methods, are read alike, and their modules would be the same.
    rcases Inventory.mem_qualified.mp here with ⟨top, listed, rfl⟩ |
      ⟨type, listed, method, inside, rfl⟩
    · rcases Inventory.mem_qualified.mp there with ⟨given, stated, same⟩ |
        ⟨type, alsoListed, method, inside, same⟩
      · have equal := Identifier.module_eq_of_qualify (alsoPlain _ (topLevel_subset stated))
          (plain _ (topLevel_subset listed)) same
        exact absurd equal.symm modules
      · exact .inr (covers_of_qualify_eq alsoListed inside listed
          (alsoPlain _ (method_mem_names alsoListed inside))
          (plain _ (topLevel_subset listed)) same.symm)
    · rcases Inventory.mem_qualified.mp there with ⟨given, stated, same⟩ |
        ⟨rival, stated, given, alsoInside, same⟩
      · rw [← same]
        exact .inl (covers_of_qualify_eq listed inside stated
          (plain _ (method_mem_names listed inside))
          (alsoPlain _ (topLevel_subset stated)) same)
      · have types := Identifier.module_eq_of_qualify
          (alsoPlain _ (method_mem_names stated alsoInside))
          (plain _ (method_mem_names listed inside)) same
        have equal := Identifier.module_eq_of_qualify (alsoPlain _ (name_mem_names stated))
          (plain _ (name_mem_names listed)) types
        exact absurd equal.symm modules
  · rintro (covers | covers)
    · exact covers.mem_qualified
    · exact covers.mem_qualified.symm

end Inventory

/-- One file covers what another one declares under an id. -/
def SourceFile.Covers (files : List SourceFile) (outer inner : SourceFile) (id : String) : Prop :=
  ∃ name, outer.inventory.Covers (moduleNames files outer) inner.inventory
    (moduleNames files inner) name ∧
    Identifier.symbol name = id

/-- The declarations of two files have an id in common exactly where one of the files covers the
other: it has a type by the full name of the other's module, and on it a method by the name of a
function or a type that the other declares. -/
theorem buildGraph_ids_shared_iff {files : List SourceFile}
    (plain : ∀ file ∈ files, file.family ≠ .swift)
    (distinct : (files.map (moduleNames files)).Nodup)
    (dotless : ∀ file ∈ files, ∀ name ∈ file.inventory.names, Dotless name) :
    ∃ result, buildGraph files = .ok result ∧
      (∀ file ∈ files, ∀ id, file.Registers files id → id ∈ result.nodes) ∧
      ∀ file ∈ files, ∀ other ∈ files, file ≠ other → ∀ id,
        (file.Registers files id ∧ other.Registers files id ↔
          file.Covers files other id ∨ other.Covers files file id) := by
  obtain ⟨result, built, _⟩ := buildGraph_edges files
  refine ⟨result, built, fun file _ id => registered_mem_nodes built, ?_⟩
  intro file listed other alsoListed different id
  have modules : moduleNames files file ≠ moduleNames files other := fun same =>
    different (List.inj_on_of_nodup_map distinct listed alsoListed same)
  have both := Inventory.mem_qualified_both_iff modules (dotless file listed)
    (dotless other alsoListed)
  rw [registers_iff distinct listed (plain file listed),
    registers_iff distinct alsoListed (plain other alsoListed)]
  constructor
  · rintro ⟨⟨name, here, rfl⟩, given, there, same⟩
    cases Identifier.symbol_inj.mp same
    exact ((both name).mp ⟨here, there⟩).imp (fun covers => ⟨name, covers, rfl⟩) fun covers =>
      ⟨name, covers, rfl⟩
  · rintro (⟨name, covers, rfl⟩ | ⟨name, covers, rfl⟩)
    · obtain ⟨here, there⟩ := (both name).mpr (.inl covers)
      exact ⟨⟨name, here, rfl⟩, name, there, rfl⟩
    · obtain ⟨here, there⟩ := (both name).mpr (.inr covers)
      exact ⟨⟨name, here, rfl⟩, name, there, rfl⟩

/-- A module with a class, and a module in a directory by the name of the class's module. -/
def classModule : SourceFile where
  path := "a.py"
  language := .python
  text := "class b:\n    def c(self): pass\n"
  tree := some (.plain "module" none 0 31 [.plain "class_definition" none 0 30
    [.plain "identifier" (some "name") 6 7 [],
     .plain "block" (some "body") 13 30 [.plain "function_definition" none 13 30
       [.plain "identifier" (some "name") 17 18 [],
        .plain "parameters" (some "parameters") 18 24 [],
        .plain "block" (some "body") 26 30 []]]]])

def nestedModule : SourceFile where
  path := "a/b.py"
  language := .python
  text := "def c(): pass\n"
  tree := some (.plain "module" none 0 14 [.plain "function_definition" none 0 13
    [.plain "identifier" (some "name") 4 5 [], .plain "parameters" (some "parameters") 5 7 [],
     .plain "block" (some "body") 9 13 []]])

/-- The method of the one file and the function of the other are one node. -/
theorem registers_not_apart :
    let files := [classModule, nestedModule]
    files.map (moduleNames files) = ["a", "a.b"] ∧
      (∀ file ∈ files, file.family = .python ∧ ∀ name ∈ file.inventory.names, Dotless name) ∧
      classModule.Registers files "symbol:a.b.c" ∧ nestedModule.Registers files "symbol:a.b.c" ∧
      (buildGraph files).toOption.map (fun result =>
        (result.nodes["symbol:a.b.c"]?.map SymbolNode.kind,
          (result.edges.filter fun edge => edge.target == "symbol:a.b.c").map GraphEdge.source)) =
        some (some .function, ["symbol:a.b", "file:a/b.py"]) := by
  decide +kernel

theorem buildGraph_ids_shared_iff_nested :
    let files := [classModule, nestedModule]
    (∀ file ∈ files, file.family ≠ .swift) ∧ (files.map (moduleNames files)).Nodup ∧
      (∀ file ∈ files, ∀ name ∈ file.inventory.names, Dotless name) ∧
      (classModule.Covers files nestedModule "symbol:a.b.c" ∨
        nestedModule.Covers files classModule "symbol:a.b.c") ∧
      ¬(classModule.Covers files nestedModule "symbol:a.b" ∨
        nestedModule.Covers files classModule "symbol:a.b") := by
  intro files
  have plain : ∀ file ∈ files, file.family ≠ .swift := by decide
  have distinct : (files.map (moduleNames files)).Nodup := by decide +kernel
  have dotless : ∀ file ∈ files, ∀ name ∈ file.inventory.names, Dotless name := by decide +kernel
  obtain ⟨result, built, _, shared⟩ := buildGraph_ids_shared_iff plain distinct dotless
  have different : classModule ≠ nestedModule :=
    fun same => absurd (congrArg SourceFile.path same) (by decide)
  have pair := shared classModule (by simp [files]) nestedModule (by simp [files]) different
  exact ⟨plain, distinct, dotless, (pair "symbol:a.b.c").mp (by decide +kernel),
    fun covers => absurd ((pair "symbol:a.b").mpr covers) (by decide +kernel)⟩

end SourceAtlas
