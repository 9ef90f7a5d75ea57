/- Where outlines come from: whatever the outline of a file lists was read from a node that occurs
in the tree of the file. Which node it was decides both the place of a declaration and the calls of
a function. -/
import SourceAtlas.Outline.JavaScript
import SourceAtlas.Outline.Python
import SourceAtlas.Outline.Swift
import SourceAtlas.Proofs.Traversal

namespace SourceAtlas

namespace SyntaxTree

theorem Occurs.namedChild {root tree child : SyntaxTree} (occurs : root.Occurs tree)
    (member : child ∈ tree.namedChildren) : root.Occurs child :=
  occurs.child (List.mem_of_mem_filter member)

theorem Occurs.field {root tree child : SyntaxTree} (occurs : root.Occurs tree) {field : String}
    (found : tree.child? field = some child) : root.Occurs child :=
  occurs.child (List.mem_of_find?_eq_some found)

theorem tree_mem_of_place {before trees : List SyntaxTree} {placed : Placed}
    (member : placed ∈ place before trees) : placed.tree ∈ trees := by
  induction trees generalizing before with
  | nil => cases member
  | cons tree rest ih =>
      rw [place, List.mem_cons] at member
      rcases member with rfl | later
      · exact List.mem_cons_self
      · exact List.mem_cons_of_mem _ (ih later)

theorem Occurs.placedChild {root tree : SyntaxTree} (occurs : root.Occurs tree) {placed : Placed}
    (member : placed ∈ tree.placedChildren) : root.Occurs placed.tree :=
  occurs.child (tree_mem_of_place (List.mem_of_mem_filter member))

/-- The members of a declaration are read from the parts of its body, and there are none without a
body. -/
theorem exists_of_mem_body {α β : Type} {tree : SyntaxTree} {parts : SyntaxTree → List α}
    {read : α → Option β} {member : β}
    (listed : member ∈ ((tree.child? "body").map fun body => (parts body).filterMap read).getD []) :
    ∃ body part, tree.child? "body" = some body ∧ part ∈ parts body ∧ read part = some member := by
  cases found : tree.child? "body" with
  | none => simp [found] at listed
  | some body =>
      rw [found, Option.map_some, Option.getD_some, List.mem_filterMap] at listed
      obtain ⟨part, inside, reading⟩ := listed
      exact ⟨body, part, rfl, inside, reading⟩

end SyntaxTree

variable {file : SourceFile} {root tree : SyntaxTree}

namespace Python

/-- A function is read from a definition in a tree. -/
inductive Function.ReadIn (file : SourceFile) (root : SyntaxTree) : Function → Prop
  | definition {tree decorators declaration} :
      root.Occurs tree → tree.kind = "function_definition" →
      declaration? file tree = some declaration →
      Function.ReadIn file root ⟨declaration, decorators,
        ((tree.child? "body").map (callsIn file)).getD []⟩

structure Class.ReadIn (file : SourceFile) (root : SyntaxTree) (cls : Class) : Prop where
  declared : ∃ tree, root.Occurs tree ∧ declaration? file tree = some cls.declaration
  methods : ∀ method ∈ cls.methods, method.ReadIn file root

/-- What a statement adds to an outline is read from nodes of a tree. -/
def Item.ReadIn (file : SourceFile) (root : SyntaxTree) : Item → Prop
  | .class value => value.ReadIn file root
  | .function value => value.ReadIn file root
  | .import _ => True
  | .blueprint value => ∃ tree, root.Occurs tree ∧ Python.blueprint? file tree = some value

theorem function?_readIn {decorators : List Decorator} {function : Function}
    (occurs : root.Occurs tree) (kind : tree.kind = "function_definition")
    (read : function? file decorators tree = some function) :
    function.ReadIn file root := by
  obtain ⟨declaration, declared, rfl⟩ := Option.map_eq_some_iff.mp read
  exact .definition occurs kind declared

theorem method?_readIn {method : Function} (occurs : root.Occurs tree)
    (read : method? file tree = some method) :
    method.ReadIn file root := by
  unfold method? at read
  split at read
  · next kind => exact function?_readIn occurs kind read
  · split at read
    · next definition found =>
        split at read
        · next kind => exact function?_readIn (occurs.field found) kind read
        · cases read
    · cases read
  · cases read

theorem class?_readIn {cls : Class} (occurs : root.Occurs tree)
    (read : class? file tree = some cls) :
    cls.ReadIn file root := by
  obtain ⟨declaration, declared, rfl⟩ := Option.map_eq_some_iff.mp read
  refine ⟨⟨tree, occurs, declared⟩, ?_⟩
  intro method member
  obtain ⟨body, item, found, listed, read⟩ := SyntaxTree.exists_of_mem_body member
  exact method?_readIn ((occurs.field found).namedChild listed) read

theorem statement_readIn (occurs : root.Occurs tree) :
    ∀ item ∈ statement file tree, item.ReadIn file root := by
  intro item member
  unfold statement at member
  split at member
  · obtain ⟨cls, read, rfl⟩ := Option.map_eq_some_iff.mp (Option.mem_toList.mp member)
    exact class?_readIn occurs read
  · next kind =>
      obtain ⟨function, read, rfl⟩ := Option.map_eq_some_iff.mp (Option.mem_toList.mp member)
      exact function?_readIn occurs kind read
  · split at member
    · next definition found =>
        split at member
        · next kind =>
            obtain ⟨function, read, rfl⟩ := Option.map_eq_some_iff.mp (Option.mem_toList.mp member)
            exact function?_readIn (occurs.field found) kind read
        · obtain ⟨cls, read, rfl⟩ := Option.map_eq_some_iff.mp (Option.mem_toList.mp member)
          exact class?_readIn (occurs.field found) read
        · cases member
    · cases member
  · obtain ⟨imported, _, rfl⟩ := List.mem_map.mp member
    trivial
  · obtain ⟨imported, _, rfl⟩ := Option.map_eq_some_iff.mp (Option.mem_toList.mp member)
    trivial
  · obtain ⟨blueprint, listed, rfl⟩ := List.mem_map.mp member
    obtain ⟨child, inside, read⟩ := List.mem_filterMap.mp listed
    exact ⟨child, occurs.namedChild inside, read⟩
  · cases member

theorem Outline.exists_items (file : SourceFile) : ∃ items, Outline.ofFile file = .ofItems items ∧
    ∀ item ∈ items, ∃ root, file.tree = some root ∧ item.ReadIn file root := by
  cases parsed : file.tree with
  | none => exact ⟨[], by simp [Outline.ofFile, parsed, Outline.ofItems, default], by simp⟩
  | some root =>
      refine ⟨root.namedChildren.flatMap (statement file), by simp [Outline.ofFile, parsed], ?_⟩
      intro item member
      obtain ⟨tree, listed, inside⟩ := List.mem_flatMap.mp member
      exact ⟨root, rfl, statement_readIn ((SyntaxTree.Occurs.root root).namedChild listed)
        item inside⟩

theorem Outline.mem_classes {cls : Class} (listed : cls ∈ (Outline.ofFile file).classes) :
    ∃ root, file.tree = some root ∧ cls.ReadIn file root := by
  obtain ⟨items, same, read⟩ := Outline.exists_items file
  rw [same] at listed
  obtain ⟨item, member, kind⟩ := List.mem_filterMap.mp listed
  cases item <;> cases kind
  exact read _ member

theorem Outline.mem_functions {function : Function}
    (listed : function ∈ (Outline.ofFile file).functions) :
    ∃ root, file.tree = some root ∧ function.ReadIn file root := by
  obtain ⟨items, same, read⟩ := Outline.exists_items file
  rw [same] at listed
  obtain ⟨item, member, kind⟩ := List.mem_filterMap.mp listed
  cases item <;> cases kind
  exact read _ member

theorem Outline.mem_blueprints {blueprint : Blueprint}
    (listed : blueprint ∈ (Outline.ofFile file).blueprints) :
    ∃ tree, blueprint? file tree = some blueprint := by
  obtain ⟨items, same, read⟩ := Outline.exists_items file
  rw [same] at listed
  obtain ⟨item, member, kind⟩ := List.mem_filterMap.mp listed
  cases item <;> cases kind
  obtain ⟨root, -, tree, -, found⟩ := read _ member
  exact ⟨tree, found⟩

end Python

namespace JavaScript

/-- The definitions whose body is a part of its own, which may be missing. -/
def functionKinds : List String :=
  ["function_declaration", "generator_function_declaration", "method_definition",
   "method_signature", "abstract_method_signature"]

/-- The definitions that name a function value. -/
def valueKinds : List String :=
  ["variable_declarator", "field_definition", "public_field_definition"]

/-- A function is read from a definition in a tree: one with a body, or one that names a function
value. -/
inductive Function.ReadIn (file : SourceFile) (root : SyntaxTree) : Function → Prop
  | definition {before tree name declaration} : root.Occurs tree → tree.kind ∈ functionKinds →
      declaration? file before tree name = some declaration →
      Function.ReadIn file root ⟨declaration, callsIn file (tree.child? "body")⟩
  | value {before tree name declaration value} : root.Occurs tree → tree.kind ∈ valueKinds →
      tree.child? "value" = some value → declaration? file before tree name = some declaration →
      Function.ReadIn file root ⟨declaration, callsIn file (some value)⟩

structure Class.ReadIn (file : SourceFile) (root : SyntaxTree) (cls : Class) : Prop where
  declared : ∃ before tree name,
    root.Occurs tree ∧ declaration? file before tree name = some cls.declaration
  methods : ∀ method ∈ cls.methods, method.ReadIn file root

/-- What a statement adds to an outline is read from nodes of a tree. -/
def Item.ReadIn (file : SourceFile) (root : SyntaxTree) : Item → Prop
  | .class value => value.ReadIn file root
  | .function value => value.ReadIn file root
  | .import _ => True

theorem method?_readIn {placed : SyntaxTree.Placed} {method : Function}
    (occurs : root.Occurs placed.tree) (read : method? file placed = some method) :
    method.ReadIn file root := by
  have signature (kind : placed.tree.kind ∈ functionKinds)
      (made : ((declaration? file placed.before placed.tree
        (file.fieldText? placed.tree "name")).map
        fun declaration => (⟨declaration, callsIn file (placed.tree.child? "body")⟩ : Function)) =
          some method) :
      method.ReadIn file root := by
    obtain ⟨declaration, declared, rfl⟩ := Option.map_eq_some_iff.mp made
    exact .definition occurs kind declared
  have field {name : Option String} (kind : placed.tree.kind ∈ valueKinds)
      (made : (((placed.tree.child? "value").filter isFunctionValue).bind fun value =>
        (declaration? file placed.before placed.tree name).bind fun declaration =>
          some (⟨declaration, callsIn file (some value)⟩ : Function)) = some method) :
            method.ReadIn file root := by
    obtain ⟨value, filtered, made⟩ := Option.bind_eq_some_iff.mp made
    obtain ⟨declaration, declared, made⟩ := Option.bind_eq_some_iff.mp made
    cases made
    exact .value occurs kind (Option.filter_eq_some_iff.mp filtered).1 declared
  simp only [method?] at read
  split at read
  · next kind => exact signature (by rw [kind]; decide) read
  · next kind => exact signature (by rw [kind]; decide) read
  · next kind => exact signature (by rw [kind]; decide) read
  · next kind => exact field (by rw [kind]; decide) read
  · next kind => exact field (by rw [kind]; decide) read
  · cases read

theorem class?_readIn {before : List SyntaxTree} {cls : Class} (occurs : root.Occurs tree)
    (read : class? file before tree = some cls) : cls.ReadIn file root := by
  obtain ⟨declaration, declared, rfl⟩ := Option.map_eq_some_iff.mp read
  refine ⟨⟨before, tree, _, occurs, declared⟩, ?_⟩
  intro method member
  obtain ⟨body, placed, found, listed, read⟩ := SyntaxTree.exists_of_mem_body member
  exact method?_readIn ((occurs.field found).placedChild listed) read

theorem declarator_readIn {before : List SyntaxTree} (occurs : root.Occurs tree) :
    ∀ item ∈ declarator file before tree, item.ReadIn file root := by
  intro item member
  unfold declarator at member
  split at member
  · next name value kind _ found =>
      split at member
      · obtain ⟨declaration, declared, rfl⟩ :=
          Option.map_eq_some_iff.mp (Option.mem_toList.mp member)
        exact .value occurs (by rw [kind]; decide) found declared
      · obtain ⟨imported, _, rfl⟩ := Option.map_eq_some_iff.mp (Option.mem_toList.mp member)
        trivial
  · cases member

mutual

theorem statement_readIn (docBefore before : List SyntaxTree) :
    (tree : SyntaxTree) → root.Occurs tree →
    ∀ item ∈ statement file docBefore before tree, item.ReadIn file root
  | .node label children, occurs => by
      intro item member
      have type (found : item ∈ ((class? file docBefore (.node label children)).map
          Item.class).toList) :
          item.ReadIn file root := by
        obtain ⟨cls, read, rfl⟩ := Option.map_eq_some_iff.mp (Option.mem_toList.mp found)
        exact class?_readIn occurs read
      have function (kind : (SyntaxTree.node label children).kind ∈ functionKinds)
          (found : item ∈ ((declaration? file docBefore (.node label children)
            (file.fieldText? (.node label children) "name")).map fun declaration =>
              Item.function {
                declaration
                calls := callsIn file ((SyntaxTree.node label children).child? "body") }).toList) :
          item.ReadIn file root := by
        obtain ⟨declaration, declared, rfl⟩ :=
          Option.map_eq_some_iff.mp (Option.mem_toList.mp found)
        exact .definition occurs kind declared
      have values (found : item ∈ (SyntaxTree.node label children).namedChildren.flatMap
          (declarator file docBefore)) : item.ReadIn file root := by
        obtain ⟨child, listed, inside⟩ := List.mem_flatMap.mp found
        exact declarator_readIn (occurs.namedChild listed) item inside
      unfold statement at member
      split at member
      · exact exported_readIn before [] children (fun child listed => occurs.child listed)
          item member
      · obtain ⟨imported, _, rfl⟩ := Option.map_eq_some_iff.mp (Option.mem_toList.mp member)
        trivial
      · exact type member
      · exact type member
      · exact type member
      · next kind => exact function (by rw [SyntaxTree.kind, SyntaxTree.label, kind]; decide) member
      · next kind => exact function (by rw [SyntaxTree.kind, SyntaxTree.label, kind]; decide) member
      · exact values member
      · exact values member
      · cases member

theorem exported_readIn (docBefore before : List SyntaxTree) : (trees : List SyntaxTree) →
    (∀ tree ∈ trees, root.Occurs tree) → ∀ item ∈ exported file docBefore before trees,
      item.ReadIn file root
  | [], _ => by
      intro item member
      cases member
  | tree :: rest, occur => by
      intro item member
      unfold exported at member
      split at member
      · exact statement_readIn docBefore before tree (occur tree List.mem_cons_self) item member
      · exact exported_readIn docBefore (tree :: before) rest
          (fun other listed => occur other (List.mem_cons_of_mem _ listed)) item member

end

theorem Outline.exists_items (file : SourceFile) : ∃ items, Outline.ofFile file = .ofItems items ∧
    ∀ item ∈ items, ∃ root, file.tree = some root ∧ item.ReadIn file root := by
  cases parsed : file.tree with
  | none => exact ⟨[], by simp [Outline.ofFile, parsed, Outline.ofItems, default], by simp⟩
  | some root =>
      refine ⟨root.placedChildren.flatMap fun child =>
        statement file child.before child.before child.tree, by simp [Outline.ofFile, parsed], ?_⟩
      intro item member
      obtain ⟨child, listed, inside⟩ := List.mem_flatMap.mp member
      exact ⟨root, rfl, statement_readIn child.before child.before child.tree
        ((SyntaxTree.Occurs.root root).placedChild listed) item inside⟩

theorem Outline.mem_classes {cls : Class} (listed : cls ∈ (Outline.ofFile file).classes) :
    ∃ root, file.tree = some root ∧ cls.ReadIn file root := by
  obtain ⟨items, same, read⟩ := Outline.exists_items file
  rw [same] at listed
  obtain ⟨item, member, kind⟩ := List.mem_filterMap.mp listed
  cases item <;> cases kind
  exact read _ member

theorem Outline.mem_functions {function : Function}
    (listed : function ∈ (Outline.ofFile file).functions) :
    ∃ root, file.tree = some root ∧ function.ReadIn file root := by
  obtain ⟨items, same, read⟩ := Outline.exists_items file
  rw [same] at listed
  obtain ⟨item, member, kind⟩ := List.mem_filterMap.mp listed
  cases item <;> cases kind
  exact read _ member

end JavaScript

namespace Swift

def functionKinds : List String :=
  ["function_declaration", "protocol_function_declaration", "init_declaration"]

/-- A function is read from a definition in a tree. -/
inductive Function.ReadIn (file : SourceFile) (root : SyntaxTree) : Function → Prop
  | definition {before tree name} :
      root.Occurs tree → tree.kind ∈ functionKinds → Function.ReadIn file root
      ⟨declarationOf file before tree name, ((tree.child? "body").map (callsIn file)).getD []⟩

structure TypeDeclaration.ReadIn (file : SourceFile) (root : SyntaxTree) (type : TypeDeclaration) :
    Prop where
  declared : ∃ before tree name,
    root.Occurs tree ∧ type.declaration = declarationOf file before tree name
  methods : ∀ method ∈ type.methods, method.ReadIn file root

theorem function?_readIn {placed : SyntaxTree.Placed} {function : Function}
    (occurs : root.Occurs placed.tree) (read : function? file placed = some function) :
    function.ReadIn file root := by
  simp only [function?] at read
  split at read
  · next kind =>
      obtain ⟨name, _, made⟩ := Option.bind_eq_some_iff.mp read
      cases made
      exact .definition occurs (by rw [kind]; decide)
  · next kind =>
      obtain ⟨name, _, made⟩ := Option.bind_eq_some_iff.mp read
      cases made
      exact .definition occurs (by rw [kind]; decide)
  · next kind =>
      cases read
      exact .definition occurs (by rw [kind]; decide)
  · cases read

theorem type?_readIn {placed : SyntaxTree.Placed} {type : TypeDeclaration}
    (occurs : root.Occurs placed.tree) (read : type? file placed = some type) :
    type.ReadIn file root := by
  obtain ⟨kind, _, rest⟩ := Option.bind_eq_some_iff.mp read
  obtain ⟨name, _, made⟩ := Option.bind_eq_some_iff.mp rest
  cases made
  refine ⟨⟨placed.before, placed.tree, name, occurs, rfl⟩, ?_⟩
  intro method member
  obtain ⟨body, inner, found, listed, read⟩ := SyntaxTree.exists_of_mem_body member
  exact function?_readIn ((occurs.field found).placedChild listed) read

theorem Outline.mem_types {type : TypeDeclaration} (listed : type ∈ (Outline.ofFile file).types) :
    ∃ root, file.tree = some root ∧ type.ReadIn file root := by
  cases parsed : file.tree with
  | none => simp [Outline.ofFile, parsed, default] at listed
  | some root =>
      simp only [Outline.ofFile, parsed] at listed
      obtain ⟨placed, inside, read⟩ := List.mem_filterMap.mp listed
      exact ⟨root, rfl, type?_readIn ((SyntaxTree.Occurs.root root).placedChild inside) read⟩

theorem Outline.mem_functions {function : Function}
    (listed : function ∈ (Outline.ofFile file).functions) :
    ∃ root, file.tree = some root ∧ function.ReadIn file root := by
  cases parsed : file.tree with
  | none => simp [Outline.ofFile, parsed, default] at listed
  | some root =>
      simp only [Outline.ofFile, parsed] at listed
      obtain ⟨placed, inside, read⟩ := List.mem_filterMap.mp listed
      exact ⟨root, rfl,
        function?_readIn ((SyntaxTree.Occurs.root root).placedChild (List.mem_of_mem_filter inside))
        read⟩

end Swift

end SourceAtlas
