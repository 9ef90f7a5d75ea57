/- The search for the first fault of a tree passes over everything that is not flagged. It still
finds the fault that a search through the whole tree finds, as long as no fault has a node above it
without a flag. -/
import SourceAtlas.Proofs.Traversal
import SourceAtlas.Syntax.Source

namespace SourceAtlas

/-- In a list that is ordered strictly, what a search finds is the least of the items that it
accepts. -/
theorem find?_eq_some_iff_of_ordered {α : Type} {before : α → α → Prop} [Std.Asymm before]
    {items : List α} {accept : α → Bool} {item : α} (ordered : items.Pairwise before) :
    items.find? accept = some item ↔
      item ∈ items ∧ accept item = true ∧ ∀ other ∈ items,
        before other item → accept other = false := by
  rw [List.find?_eq_some_iff_append]
  constructor
  · rintro ⟨accepted, earlier, later, rfl, missed⟩
    refine ⟨by simp, accepted, ?_⟩
    intro other member less
    obtain ⟨-, after, -⟩ := List.pairwise_append.mp ordered
    rcases List.mem_append.mp member with first | last
    · simpa using missed other first
    · rcases List.mem_cons.mp last with rfl | last
      · exact absurd less (asymm less)
      · exact absurd less (asymm ((List.pairwise_cons.mp after).1 other last))
  · rintro ⟨member, accepted, least⟩
    obtain ⟨earlier, later, rfl⟩ := List.append_of_mem member
    refine ⟨accepted, earlier, later, rfl, ?_⟩
    intro other first
    have less := (List.pairwise_append.mp ordered).2.2 other first item List.mem_cons_self
    simp [least other (List.mem_append_left _ first) less]

namespace SyntaxTree

variable {root : SyntaxTree}

theorem Occurs.trans {middle node : SyntaxTree} (outer : root.Occurs middle)
    (inner : middle.Occurs node) :
    root.Occurs node := by
  obtain ⟨first, here⟩ := outer
  obtain ⟨second, there⟩ := inner
  refine ⟨first ++ second, ?_⟩
  rw [at?_append, here, Option.bind_some, there]

@[simp] theorem mem_preorder_iff_occurs {node : SyntaxTree} :
    node ∈ root.preorder ↔ root.Occurs node := by
  rw [← List.mem_map_of_injective (Option.some_injective SyntaxTree), ← map_at?_places,
    List.mem_map]
  constructor
  · rintro ⟨place, _, here⟩
    exact ⟨place, here⟩
  · rintro ⟨place, here⟩
    exact ⟨place, mem_places_iff.mpr (Option.isSome_of_eq_some here), here⟩

theorem mem_preorderAll_iff {trees : List SyntaxTree} {node : SyntaxTree} :
    node ∈ preorderAll trees ↔ ∃ tree ∈ trees, tree.Occurs node := by
  induction trees with
  | nil => simp [preorderAll]
  | cons tree rest ih =>
      rw [preorderAll, List.mem_append, ih, mem_preorder_iff_occurs, List.exists_mem_cons_iff]

/-- Every node with a fault somewhere below it is flagged. Nothing is said of the faults themselves,
and nodes without a fault may be flagged as well. -/
def Announced (root : SyntaxTree) : Prop :=
  ∀ node, root.Occurs node → ∀ child ∈ node.children, ∀ fault,
    child.Occurs fault → fault.isFault = true →
    node.label.hasError = true

theorem announced_iff :
    root.Announced ↔ ∀ node ∈ root.preorder, ∀ child ∈ node.children, ∀ fault ∈ child.preorder,
    fault.isFault = true → node.label.hasError = true := by
  simp only [mem_preorder_iff_occurs]
  exact Iff.rfl

instance : Decidable root.Announced := decidable_of_iff _ announced_iff.symm

theorem Announced.child (announced : root.Announced) {child : SyntaxTree}
    (member : child ∈ root.children) :
    child.Announced := by
  intro node inside
  exact announced node (((Occurs.root root).child member).trans inside)

mutual

/-- Looking only where a fault is announced, the search finds what it would find by looking
everywhere. -/
theorem firstFault?_eq_find? : (tree : SyntaxTree) → tree.Announced →
    tree.firstFault? = tree.preorder.find? isFault
  | .node label children, announced => by
      rw [firstFault?, preorder]
      by_cases faulty : (label.isError || label.isMissing) = true
      · rw [if_pos faulty, List.find?_cons_of_pos
          (show isFault (.node label children) = true from faulty)]
      · rw [if_neg faulty, List.find?_cons_of_neg
          (show ¬isFault (.node label children) = true from faulty)]
        by_cases flagged : label.hasError = true
        · rw [if_pos flagged]
          exact firstFaultIn?_eq_find? children fun child member => announced.child member
        · -- The whole subtree is passed over, and by assumption no fault is in it.
          rw [if_neg flagged, eq_comm, List.find?_eq_none]
          intro node inside fault
          obtain ⟨child, member, within⟩ := mem_preorderAll_iff.mp inside
          exact flagged (announced _ (.root _) child member node within fault)

theorem firstFaultIn?_eq_find? : (trees : List SyntaxTree) → (∀ tree ∈ trees, tree.Announced) →
    firstFaultIn? trees = (preorderAll trees).find? isFault
  | [], _ => by
      rw [firstFaultIn?, preorderAll, List.find?_nil]
  | tree :: rest, announced => by
      obtain ⟨here, later⟩ := List.forall_mem_cons.mp announced
      rw [firstFaultIn?, preorderAll, List.find?_append, firstFault?_eq_find? tree here,
        firstFaultIn?_eq_find? rest later]

end

/-- A fault stands at some place of a tree, and at no place before it in document order is there
another. -/
def EarliestFault (root fault : SyntaxTree) : Prop :=
  fault.isFault = true ∧ ∃ place, root.at? place = some fault ∧
    ∀ other node, List.Lex (· < ·) other place → root.at? other = some node → node.isFault = false

theorem find?_preorder_eq_some_iff {fault : SyntaxTree} :
    root.preorder.find? isFault = some fault ↔ root.EarliestFault fault := by
  -- A node is looked for by its place: places are ordered, and equal nodes may stand at several of
  -- them.
  have placed : (root.places.find? fun place => (root.at? place).any isFault).map root.at? =
      (root.preorder.find? isFault).map some := by
    have same := congrArg (List.find? (Option.any isFault)) (map_at?_places root)
    rwa [List.find?_map, List.find?_map] at same
  have found : root.preorder.find? isFault = some fault ↔
      ∃ place, root.places.find? (fun place => (root.at? place).any isFault) = some place ∧
        root.at? place = some fault := by
    rw [← Option.map_eq_some_iff, placed, Option.map_eq_some_iff]
    simp
  rw [found]
  simp only [find?_eq_some_iff_of_ordered (places_ordered root), mem_places_iff]
  constructor
  · rintro ⟨place, ⟨-, faulty, least⟩, here⟩
    rw [here] at faulty
    refine ⟨faulty, place, here, ?_⟩
    intro other node less there
    have missed := least other (Option.isSome_of_eq_some there) less
    rwa [there] at missed
  · rintro ⟨faulty, place, here, least⟩
    refine ⟨place, ⟨Option.isSome_of_eq_some here, ?_, ?_⟩, here⟩
    · rw [here]
      exact faulty
    · intro other inside less
      obtain ⟨node, there⟩ := Option.isSome_iff_exists.mp inside
      rw [there]
      exact least other node less there

end SyntaxTree

@[simp] theorem Position.row_advance (position : Position) (byte : UInt8) :
    (position.advance byte).row = position.row + if byte == 10 then 1 else 0 := by
  by_cases feed : byte = 10
  · simp [advance, feed]
  · simp [advance, feed]

theorem Position.row_foldl_advance (bytes : List UInt8) (position : Position) :
    (bytes.foldl advance position).row = position.row + bytes.count 10 := by
  induction bytes generalizing position with
  | nil => rfl
  | cons byte rest ih =>
      rw [List.foldl_cons, ih, row_advance, List.count_cons]
      omega

namespace SourceFile

/-- The line on which a node starts, counted from one: there is a line feed before each line but the
first. -/
def lineOf (file : SourceFile) (tree : SyntaxTree) : Nat :=
  (file.text.toUTF8.extract 0 tree.label.start).toList.count 10 + 1

theorem row_position (file : SourceFile) (tree : SyntaxTree) :
    (file.position tree.label.start).row + 1 = file.lineOf tree := by
  rw [position, Position.row_foldl_advance, Nat.zero_add, lineOf]

/-- Where faults are announced, the reported line is that of the first fault in document order, and
no line is reported exactly when the tree has no fault. -/
theorem firstFaultLine?_earliest (file : SourceFile) {tree : SyntaxTree}
    (announced : tree.Announced) :
    file.firstFaultLine? tree = (tree.preorder.find? SyntaxTree.isFault).map file.lineOf ∧
    (∀ line, file.firstFaultLine? tree = some line ↔ ∃ fault,
      tree.EarliestFault fault ∧ file.lineOf fault = line) ∧
    (file.firstFaultLine? tree = none ↔ ∀ node, tree.Occurs node → node.isFault = false) := by
  have search : file.firstFaultLine? tree =
      (tree.preorder.find? SyntaxTree.isFault).map file.lineOf := by
    rw [firstFaultLine?, SyntaxTree.firstFault?_eq_find? tree announced]
    simp only [row_position]
  refine ⟨search, ?_, ?_⟩
  · intro line
    rw [search, Option.map_eq_some_iff]
    simp only [SyntaxTree.find?_preorder_eq_some_iff]
  · rw [search, Option.map_eq_none_iff, List.find?_eq_none]
    simp only [SyntaxTree.mem_preorder_iff_occurs, Bool.not_eq_true]

/-- A tree with an import that is flagged although nothing in it is a fault, and on the next line a
call without its closing bracket. The missing bracket itself has no flag. -/
def falseAlarm : SyntaxTree :=
  let flagged : SyntaxLabel := { (default : SyntaxLabel) with isNamed := true, hasError := true }
  .node { flagged with kind := "source_file", stop := 9 }
    [.node { flagged with kind := "import_declaration", stop := 6 }
      [.node { flagged with kind := "identifier", start := 6, stop := 6 } []],
     .node { flagged with kind := "call_expression", start := 7, stop := 9 }
      [.node { (default : SyntaxLabel) with kind := "(", start := 8, stop := 9 } [],
       .node { (default : SyntaxLabel) with kind := ")", isMissing := true, start := 9, stop := 9 }
       []]]

theorem firstFaultLine?_earliest_falseAlarm :
    falseAlarm.Announced ∧ ∃ fault, falseAlarm.EarliestFault fault ∧
      firstFaultLine? ⟨"a.swift", .swift, "import\nf(", some falseAlarm⟩ falseAlarm = some 2 := by
  have announced : falseAlarm.Announced := by decide
  obtain ⟨search, reported, -⟩ :=
    firstFaultLine?_earliest ⟨"a.swift", .swift, "import\nf(", some falseAlarm⟩ announced
  have second := search.trans (show _ = some 2 by decide +kernel)
  obtain ⟨fault, earliest, -⟩ := (reported 2).mp second
  exact ⟨announced, fault, earliest, second⟩

end SourceFile

end SourceAtlas
