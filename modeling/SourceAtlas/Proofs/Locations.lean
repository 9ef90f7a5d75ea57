/- The files in which the nodes of a build lie. An outline records every declaration with a place in
its own file, and nodes are made from nothing else, so a node that has a place has it in one of the
files; and the nodes of kind file are the files themselves. -/
import SourceAtlas.Proofs.Origin
import SourceAtlas.Proofs.Provenance

namespace SourceAtlas

variable {file : SourceFile} {root tree : SyntaxTree}

namespace Python

theorem declaration?_path {declaration : Declaration}
    (read : declaration? file tree = some declaration) :
    declaration.location.path = file.path := by
  obtain ⟨name, _, made⟩ := Option.bind_eq_some_iff.mp read
  cases made
  rfl

theorem Function.ReadIn.path {function : Function} (read : function.ReadIn file root) :
    function.declaration.location.path = file.path := by
  obtain ⟨-, -, declared⟩ := read
  exact declaration?_path declared

theorem Class.ReadIn.path {cls : Class} (read : cls.ReadIn file root) :
    cls.declaration.location.path = file.path := by
  obtain ⟨tree, -, declared⟩ := read.declared
  exact declaration?_path declared

theorem blueprint?_path {blueprint : Blueprint} (read : blueprint? file tree = some blueprint) :
    blueprint.location.path = file.path := by
  obtain ⟨_, _, assigned⟩ := Option.bind_eq_some_iff.mp read
  obtain ⟨left, _, assigned⟩ := Option.bind_eq_some_iff.mp assigned
  obtain ⟨right, _, assigned⟩ := Option.bind_eq_some_iff.mp assigned
  obtain ⟨_, _, called⟩ := Option.bind_eq_some_iff.mp assigned
  obtain ⟨callee, _, called⟩ := Option.bind_eq_some_iff.mp called
  obtain ⟨_, _, made⟩ := Option.bind_eq_some_iff.mp called
  cases made
  rfl

end Python

namespace JavaScript

theorem declaration?_path {before : List SyntaxTree} {name : Option String}
    {declaration : Declaration} (read : declaration? file before tree name = some declaration) :
    declaration.location.path = file.path := by
  obtain ⟨known, _, rfl⟩ := Option.map_eq_some_iff.mp read
  rfl

theorem Function.ReadIn.path {function : Function} (read : function.ReadIn file root) :
    function.declaration.location.path = file.path := by
  cases read with
  | definition _ _ declared => exact declaration?_path declared
  | value _ _ _ declared => exact declaration?_path declared

theorem Class.ReadIn.path {cls : Class} (read : cls.ReadIn file root) :
    cls.declaration.location.path = file.path := by
  obtain ⟨before, tree, name, -, declared⟩ := read.declared
  exact declaration?_path declared

end JavaScript

namespace Swift

theorem Function.ReadIn.path {function : Function} (read : function.ReadIn file root) :
    function.declaration.location.path = file.path := by
  cases read
  rfl

theorem TypeDeclaration.ReadIn.path {type : TypeDeclaration} (read : type.ReadIn file root) :
    type.declaration.location.path = file.path := by
  obtain ⟨before, tree, name, -, same⟩ := read.declared
  rw [same]
  rfl

end Swift

/-- A step that makes a node of the repository gives it a place in a given file. -/
def Step.LiesIn (path : String) : Step → Prop
  | .declare node => node.location.map SourceLocation.path = some path
  | .adopt node _ _ => node.location.map SourceLocation.path = some path
  | _ => True

open Step

namespace Step.LiesIn

variable {α : Type} {path : String} (unit : SourceUnit α)

theorem symbol {declaration : Declaration} (kind : NodeKind)
    (inside : declaration.location.path = path) :
    Each (LiesIn path) (unit.symbolSteps declaration kind) :=
  .cons (congrArg some inside) (.cons trivial (.cons trivial .nil))

theorem method (ownerId ownerName : String) {declaration : Declaration}
    (inside : declaration.location.path = path) :
    Each (LiesIn path) (unit.methodSteps ownerId ownerName declaration) :=
  .cons (congrArg some inside) (.cons trivial (.cons trivial .nil))

theorem type {β : Type} {declaration : Declaration} {methods : List β} {member : β → Declaration}
    (inside : declaration.location.path = path)
    (within : ∀ one ∈ methods, (member one).location.path = path) :
    Each (LiesIn path) (unit.symbolSteps declaration .class ++ methods.flatMap fun one =>
      unit.methodSteps (unit.symbolId declaration.name) declaration.name (member one)) :=
  .append (symbol unit .class inside)
    (.flatMap fun one listed => method unit _ _ (within one listed))

end Step.LiesIn

theorem Python.definitionSteps_liesIn (file : SourceFile) (module : String) :
    Each (LiesIn file.path) (definitionSteps ⟨file.path, module, .ofFile file⟩) := by
  refine .append (.append (.flatMap fun blueprint listed => ?_) (.flatMap fun cls listed => ?_))
    (.flatMap fun function listed => ?_)
  · obtain ⟨tree, read⟩ := Outline.mem_blueprints listed
    exact .cons (congrArg some (blueprint?_path read)) (.cons trivial .nil)
  · obtain ⟨root, -, read⟩ := Outline.mem_classes listed
    exact LiesIn.type _ read.path fun method member => (read.methods method member).path
  · obtain ⟨root, -, read⟩ := Outline.mem_functions listed
    exact LiesIn.symbol _ .function read.path

theorem JavaScript.definitionSteps_liesIn (file : SourceFile) (module : String) :
    Each (LiesIn file.path) (definitionSteps ⟨file.path, module, .ofFile file⟩) := by
  refine .append (.flatMap fun cls listed => ?_) (.flatMap fun function listed => ?_)
  · obtain ⟨root, -, read⟩ := Outline.mem_classes listed
    exact LiesIn.type _ read.path fun method member => (read.methods method member).path
  · obtain ⟨root, -, read⟩ := Outline.mem_functions listed
    exact LiesIn.symbol _ .function read.path

namespace Swift

theorem primarySteps_liesIn (file : SourceFile) (module : String) :
    Each (LiesIn file.path) (primarySteps ⟨file.path, module, .ofFile file⟩) := by
  refine .append (.flatMap fun function listed => ?_) (.flatMap fun type listed => ?_)
  · obtain ⟨root, -, read⟩ := Outline.mem_functions listed
    exact LiesIn.symbol _ .function read.path
  · obtain ⟨root, -, read⟩ := Outline.mem_types (List.mem_filter.mp listed).1
    exact LiesIn.symbol _ .class read.path

theorem memberScript_liesIn {module : String} {type : TypeDeclaration}
    (listed : type ∈ (Outline.ofFile file).types) (tables : SymbolTables) :
    Each (LiesIn file.path) (memberScript ⟨file.path, module, .ofFile file⟩ type tables) := by
  obtain ⟨root, -, read⟩ := Outline.mem_types listed
  exact .append (owner_each tables (LiesIn.symbol _ .class read.path))
    (.flatMap fun method member => LiesIn.method _ _ _ (read.methods method member).path)

end Swift

section Build

variable {files : List SourceFile} {result : GraphResult} {family : Family} {step : Step}
  {id : String} {node : SymbolNode}

theorem frontendsOf_fileNode (member : step ∈ (frontendsOf files).steps family .files)
    (made : step.node? = some node) :
    ∃ file ∈ files, node = fileNode file.path (moduleNames files file) := by
  have own {α : Type} {outline : SourceFile → α} {script : Script} {tables : SymbolTables}
      (listed : script ∈ (Frontends.units (moduleNames files) outline family files).map fun unit =>
        Script.fixed unit.fileSteps)
      (inside : step ∈ script tables) : ∃ file ∈ files,
        node = fileNode file.path (moduleNames files file) := by
    obtain ⟨unit, there, rfl⟩ := List.mem_map.mp listed
    obtain ⟨file, known, _, rfl⟩ := Frontends.mem_units there
    rcases List.mem_cons.mp inside with rfl | later
    · cases made
      exact ⟨file, known, rfl⟩
    · cases List.mem_singleton.mp later
      cases made
  obtain ⟨script, listed, seen, inside⟩ := Script.mem_stepsFrom member
  cases family with
  | python => exact own listed inside
  | javaScript => exact own listed inside
  | swift => exact own listed inside

theorem frontendsOf_liesIn (member : step ∈ (frontendsOf files).steps family .definitions) :
    ∃ file ∈ files, step.LiesIn file.path := by
  obtain ⟨script, listed, seen, inside⟩ := Script.mem_stepsFrom member
  cases family with
  | python =>
      obtain ⟨unit, there, rfl⟩ := List.mem_map.mp listed
      obtain ⟨file, known, _, rfl⟩ := Frontends.mem_units there
      exact ⟨file, known, Python.definitionSteps_liesIn file _ step inside⟩
  | javaScript =>
      obtain ⟨unit, there, rfl⟩ := List.mem_map.mp listed
      obtain ⟨file, known, _, rfl⟩ := Frontends.mem_units there
      exact ⟨file, known, JavaScript.definitionSteps_liesIn file _ step inside⟩
  | swift =>
      rcases List.mem_append.mp listed with primary | members
      · obtain ⟨unit, there, rfl⟩ := List.mem_map.mp primary
        obtain ⟨file, known, _, rfl⟩ := Frontends.mem_units there
        exact ⟨file, known, Swift.primarySteps_liesIn file _ step inside⟩
      · obtain ⟨unit, there, own⟩ := List.mem_flatMap.mp members
        obtain ⟨file, known, _, rfl⟩ := Frontends.mem_units there
        obtain ⟨type, declared, rfl⟩ := List.mem_map.mp own
        exact ⟨file, known, Swift.memberScript_liesIn declared seen step inside⟩

/-- A node is a file of the build, or something declared in one, or a name from outside. -/
theorem buildGraph_node_cases (built : buildGraph files = .ok result)
    (found : result.nodes[id]? = some node) :
    (∃ file ∈ files, node = fileNode file.path (moduleNames files file)) ∨
      (node.kind ≠ .file ∧ ∃ file ∈ files, node.location.map SourceLocation.path = some file.path) ∨
      ∃ name, node = externalNode name := by
  obtain ⟨pass, family, step, member, made⟩ := buildGraph_origin built found
  have makes := frontendsOf_makes files family pass step member
  cases step with
  | declare other =>
      cases made
      rcases makes with ⟨rfl, -⟩ | ⟨rfl, kind, -⟩
      · exact .inl (frontendsOf_fileNode member rfl)
      · obtain ⟨file, known, lies⟩ := frontendsOf_liesIn member
        exact .inr (.inl ⟨kind, file, known, lies⟩)
  | adopt other container confidence =>
      cases made
      obtain ⟨rfl, kind, -⟩ := makes
      obtain ⟨file, known, lies⟩ := frontendsOf_liesIn member
      exact .inr (.inl ⟨kind, file, known, lies⟩)
  | mention name =>
      cases made
      exact .inr (.inr ⟨name, rfl⟩)
  | _ => cases made

theorem exists_fileNode (built : buildGraph files = .ok result) (member : file ∈ files) :
    ∃ node, result.nodes[Identifier.file file.path]? = some node := by
  obtain ⟨finished, -, reached⟩ := buildWorkspace_sound files
  have mark : Identifier.file file.path ∈
      Frontends.marks (moduleNames files) files file.family .files := by
    have listed : file ∈ files.filter fun other => other.family == file.family :=
      List.mem_filter.mpr ⟨member, beq_self_eq_true _⟩
    cases own : file.family <;> rw [own] at listed <;>
      exact List.mem_map.mpr ⟨_, List.mem_map_of_mem listed, rfl⟩
  obtain ⟨node, found, _⟩ := reached .files file.family (by cases file.family <;> decide) _ mark
  delta buildGraph at built
  simp only [finished] at built
  cases built
  exact ⟨node, found⟩

theorem get?_fileNode (built : buildGraph files = .ok result) (member : file ∈ files) :
    result.nodes[Identifier.file file.path]? =
      some (fileNode file.path (moduleNames files file)) := by
  obtain ⟨node, found⟩ := exists_fileNode built member
  have keyed := keyed_of_buildGraph built found
  have kind := (buildGraph_isFile_iff built found).mpr
    (Identifier.startsWith_lead .file .file file.path)
  rw [found]
  rcases buildGraph_node_cases built found with ⟨other, listed, rfl⟩ | ⟨different, -⟩ | ⟨name, rfl⟩
  · have same : other.path = file.path := Identifier.file_inj.mp keyed
    rw [moduleNames_of_mem listed, moduleNames_of_mem member, same]
  · exact absurd kind different
  · cases kind

end Build

end SourceAtlas
