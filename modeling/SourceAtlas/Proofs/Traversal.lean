/- The traversal with an explicit stack meets every node of a tree once and in document order. Nodes
are told apart by their place, the indices of the children on the way to them, since equal subtrees
may stand at several places. -/
import Mathlib.Data.List.Lex
import Mathlib.Data.List.Sort
import SourceAtlas.Syntax.Tree

namespace SourceAtlas.SyntaxTree

/-- The subtree at a place, if the tree has that place. -/
def at? (tree : SyntaxTree) : List Nat → Option SyntaxTree
  | [] => some tree
  | index :: rest => tree.children[index]?.bind fun child => child.at? rest

/-- What the single nodes of a tree stand for: one item for each place whose node stands for
something, and these places in document order, a node before what is below it and after what is to
its left. -/
def Yields {α : Type} (tree : SyntaxTree) (stands : SyntaxTree → α → Prop) (found : List α) :
    Prop :=
  ∃ places : List (List Nat), places.Pairwise (List.Lex (· < ·)) ∧
    (∀ place, place ∈ places ↔ ∃ node item, tree.at? place = some node ∧ stands node item) ∧
    List.Forall₂ (fun place item => ∃ node, tree.at? place = some node ∧ stands node item)
      places found

def Occurs (root tree : SyntaxTree) : Prop := ∃ place, root.at? place = some tree

theorem Occurs.root (root : SyntaxTree) : root.Occurs root := ⟨[], rfl⟩

theorem at?_append (tree : SyntaxTree) (first second : List Nat) :
    tree.at? (first ++ second) = (tree.at? first).bind fun inner => inner.at? second := by
  induction first generalizing tree with
  | nil => rfl
  | cons index rest ih =>
      rw [List.cons_append, at?, at?, Option.bind_assoc]
      apply Option.bind_congr
      intro child _
      exact ih child

theorem Occurs.child {root tree child : SyntaxTree} (occurs : root.Occurs tree)
    (member : child ∈ tree.children) :
    root.Occurs child := by
  obtain ⟨place, here⟩ := occurs
  obtain ⟨index, found⟩ := List.mem_iff_getElem?.mp member
  refine ⟨place ++ [index], ?_⟩
  rw [at?_append, here, Option.bind_some, at?, found, Option.bind_some, at?]

@[simp] theorem preorderAll_append (first second : List SyntaxTree) :
    preorderAll (first ++ second) = preorderAll first ++ preorderAll second := by
  induction first with
  | nil => rfl
  | cons tree rest ih => rw [List.cons_append, preorderAll, preorderAll, ih, List.append_assoc]

/-- What is left to visit at any time are the trees on the stack, each as a whole. -/
theorem visit_eq_preorderAll (stack : List SyntaxTree) : visit stack = preorderAll stack := by
  induction stack using visit.induct with
  | case1 => rw [visit, preorderAll]
  | case2 label children rest ih =>
      rw [visit, ih, preorderAll_append, preorderAll, preorder, List.cons_append]

@[simp] theorem descendants_eq_preorder (tree : SyntaxTree) : tree.descendants = tree.preorder := by
  rw [descendants, visit_eq_preorderAll, preorderAll, preorderAll, List.append_nil]

mutual

/-- Every place of a tree in document order. -/
def places : SyntaxTree → List (List Nat)
  | .node _ children => [] :: placesFrom 0 children

/-- The places below a node in some of its children, the first of which has a given index. -/
def placesFrom : Nat → List SyntaxTree → List (List Nat)
  | _, [] => []
  | index, tree :: rest => tree.places.map (index :: ·) ++ placesFrom (index + 1) rest

end

theorem mem_placesFrom_iff {trees : List SyntaxTree} {first : Nat} {place : List Nat} :
    place ∈ placesFrom first trees ↔
      ∃ offset tree rest, trees[offset]? = some tree ∧ rest ∈ tree.places ∧
        place = (first + offset) :: rest := by
  induction trees generalizing first with
  | nil => simp [placesFrom]
  | cons head trees ih =>
      rw [placesFrom, List.mem_append, List.mem_map, ih]
      constructor
      · rintro (⟨rest, member, rfl⟩ | ⟨offset, tree, rest, found, member, rfl⟩)
        · exact ⟨0, head, rest, rfl, member, rfl⟩
        · refine ⟨offset + 1, tree, rest, found, member, ?_⟩
          rw [Nat.add_right_comm, Nat.add_assoc]
      · rintro ⟨offset, tree, rest, found, member, rfl⟩
        cases offset with
        | zero =>
            cases found
            exact .inl ⟨rest, member, rfl⟩
        | succ offset =>
            refine .inr ⟨offset, tree, rest, found, member, ?_⟩
            rw [Nat.add_right_comm, Nat.add_assoc]

@[simp] theorem mem_places_iff {tree : SyntaxTree} {place : List Nat} :
    place ∈ tree.places ↔ (tree.at? place).isSome = true := by
  induction place generalizing tree with
  | nil =>
      obtain ⟨label, children⟩ := tree
      simp [places, at?]
  | cons index rest ih =>
      obtain ⟨label, children⟩ := tree
      have below : index :: rest ∈ (node label children).places ↔
          ∃ child, children[index]? = some child ∧ rest ∈ child.places := by
        rw [places, List.mem_cons, mem_placesFrom_iff]
        constructor
        · rintro (same | ⟨offset, child, inner, found, member, same⟩)
          · cases same
          · rw [Nat.zero_add] at same
            cases same
            exact ⟨child, found, member⟩
        · rintro ⟨child, found, member⟩
          exact .inr ⟨index, child, rest, found, member, by rw [Nat.zero_add]⟩
      rw [below, at?, SyntaxTree.children]
      cases found : children[index]? with
      | none => simp
      | some child => simp [ih]

mutual

theorem places_ordered : (tree : SyntaxTree) → tree.places.Pairwise (List.Lex (· < ·))
  | .node label children => by
      rw [places, List.pairwise_cons]
      refine ⟨?_, placesFrom_ordered 0 children⟩
      intro place member
      obtain ⟨_, _, rest, _, _, rfl⟩ := mem_placesFrom_iff.mp member
      exact .nil

theorem placesFrom_ordered : (first : Nat) → (trees : List SyntaxTree) →
    (placesFrom first trees).Pairwise (List.Lex (· < ·))
  | _, [] => by
      rw [placesFrom]
      exact .nil
  | first, tree :: rest => by
      rw [placesFrom, List.pairwise_append]
      refine ⟨?_, placesFrom_ordered (first + 1) rest, ?_⟩
      · rw [List.pairwise_map]
        exact (places_ordered tree).imp .cons
      · intro place member other later
        obtain ⟨inner, _, rfl⟩ := List.mem_map.mp member
        obtain ⟨offset, _, _, _, _, rfl⟩ := mem_placesFrom_iff.mp later
        exact .rel (by omega)

end

mutual

theorem map_at?_places : (tree : SyntaxTree) → tree.places.map tree.at? = tree.preorder.map some
  | .node label children => by
      rw [places, preorder, List.map_cons, List.map_cons, at?,
        map_at?_placesFrom (.node label children) 0 children
        fun offset => by rw [Nat.zero_add]; rfl]

/-- The places in the children of a parent from a given index on lead to the nodes of these
children. -/
theorem map_at?_placesFrom : (parent : SyntaxTree) → (first : Nat) → (trees : List SyntaxTree) →
    (∀ offset : Nat, parent.children[first + offset]? = trees[offset]?) →
    (placesFrom first trees).map parent.at? = (preorderAll trees).map some
  | _, _, [], _ => by
      rw [placesFrom, preorderAll]
      rfl
  | parent, first, tree :: rest, aligned => by
      have here : parent.children[first]? = some tree := aligned 0
      have inside : (tree.places.map (first :: ·)).map parent.at? = tree.places.map tree.at? := by
        rw [List.map_map]
        apply List.map_congr_left
        intro place _
        rw [Function.comp_apply, at?, here, Option.bind_some]
      have later (offset : Nat) : parent.children[first + 1 + offset]? = rest[offset]? := by
        rw [Nat.add_right_comm, Nat.add_assoc]
        exact aligned (offset + 1)
      rw [placesFrom, preorderAll, List.map_append, List.map_append, inside, map_at?_places tree,
        map_at?_placesFrom parent (first + 1) rest later]

end

section Reading

variable {α : Type} {tree : SyntaxTree} {stands : SyntaxTree → α → Prop}
  {read : SyntaxTree → Option α} {found : List α}

theorem filterMap_places : tree.places.filterMap (fun place => (tree.at? place).bind read) =
    tree.preorder.filterMap read := by
  calc tree.places.filterMap (fun place => (tree.at? place).bind read)
    _ = (tree.places.map tree.at?).filterMap (fun node => node.bind read) := by
        rw [List.filterMap_map]
        rfl
    _ = (tree.preorder.map some).filterMap (fun node => node.bind read) := by rw [map_at?_places]
    _ = tree.preorder.filterMap read := by rw [List.filterMap_map]; rfl

/-- A function that reads off what a node stands for, applied to every node in document order, lists
what a tree yields; and it yields nothing else, since there is one way to list places in document
order. -/
theorem yields_iff (reads : ∀ node item, stands node item ↔ read node = some item) :
    tree.Yields stands found ↔ found = tree.preorder.filterMap read := by
  have item_iff (place : List Nat) (item : α) :
      (∃ node, tree.at? place = some node ∧ stands node item) ↔
        (tree.at? place).bind read = some item := by
    simp only [reads, Option.bind_eq_some_iff]
  have place_iff (place : List Nat) : (∃ node item, tree.at? place = some node ∧ stands node item) ↔
      place ∈ tree.places.filter fun place => ((tree.at? place).bind read).isSome := by
    rw [exists_comm, List.mem_filter, mem_places_iff]
    simp only [item_iff, Option.isSome_iff_exists]
    refine (and_iff_right_of_imp ?_).symm
    rintro ⟨item, accepted⟩
    obtain ⟨node, here, -⟩ := Option.bind_eq_some_iff.mp accepted
    exact ⟨node, here⟩
  have items : (tree.places.filter fun place => ((tree.at? place).bind read).isSome).map
      (fun place => (tree.at? place).bind read) = (tree.preorder.filterMap read).map some := by
    rw [← filterMap_places, List.map_filterMap_some_eq_filter_map_isSome, List.filter_map]
    rfl
  simp only [Yields, item_iff, place_iff]
  constructor
  · rintro ⟨places, ordered, accepted, listed⟩
    have same := ordered.eq_of_mem_iff ((places_ordered tree).filter _) accepted
    have texts : places.map (fun place => (tree.at? place).bind read) = found.map some := by
      rwa [← List.forall₂_eq_eq_eq, List.forall₂_map_left_iff, List.forall₂_map_right_iff]
    rw [same, items] at texts
    exact (List.map_injective_iff.mpr (Option.some_injective α) texts).symm
  · rintro rfl
    refine ⟨_, (places_ordered tree).filter _, fun place => Iff.rfl, ?_⟩
    rwa [← List.forall₂_eq_eq_eq, List.forall₂_map_left_iff, List.forall₂_map_right_iff] at items

end Reading

end SourceAtlas.SyntaxTree
