/- Which external nodes go into the group of a file, said without an order of the edges, and what
the groups then hold. -/
import Mathlib.Data.Set.Card
import SourceAtlas.Proofs.Collapse

namespace SourceAtlas

/-- The ends of an edge are two given nodes, in either direction. -/
def GraphEdge.Joins (edge : GraphEdge) (id other : String) : Prop :=
  edge.source = id ∧ edge.target = other ∨ edge.target = id ∧ edge.source = other

/-- An external node that some edge touches and none joins to an external node, and whose neighbours
are all nodes of one file. -/
structure AbsorbedBy (view : GraphView) (path : String) (node : SymbolNode) : Prop where
  member : node ∈ view.nodes
  external : node.kind = .external
  touched : ∃ edge ∈ view.edges, edge.source = node.id ∨ edge.target = node.id
  apart : ∀ edge ∈ view.edges, ∀ other ∈ view.nodes,
    other.kind = .external → ¬edge.Joins node.id other.id
  named : path ≠ ""
  together : ∀ edge ∈ view.edges, ∀ id, edge.Joins node.id id →
    ∃ other ∈ view.nodes, other.id = id ∧ other.location.map SourceLocation.path = some path

theorem SymbolNode.filePath?_eq_some_iff {node : SymbolNode} {path : String} :
    node.filePath? = some path ↔ node.location.map SourceLocation.path = some path ∧ path ≠ "" := by
  simp [SymbolNode.filePath?, Option.filter_eq_some_iff]

section Criterion

variable {view : GraphView} {node : SymbolNode} {path : String}

theorem AbsorbedBy.ownedBy (absorbed : AbsorbedBy view path node) : OwnedBy view node.id path := by
  have neighbour {edge : GraphEdge} (inside : edge ∈ view.edges) {id : String}
      (joins : edge.Joins node.id id) :
      ∃ other ∈ view.nodes, other.id = id ∧ other.kind ≠ .external ∧
        other.filePath? = some path := by
    obtain ⟨other, listed, rfl, located⟩ := absorbed.together edge inside id joins
    refine ⟨other, listed, rfl, ?_, SymbolNode.filePath?_eq_some_iff.mpr ⟨located, absorbed.named⟩⟩
    intro external
    exact absorbed.apart edge inside other listed external joins
  constructor
  · exact ⟨node, absorbed.member, rfl, absorbed.external⟩
  · exact absorbed.touched
  · intro edge inside source
    exact neighbour inside (.inl ⟨source, rfl⟩)
  · intro edge inside target
    exact neighbour inside (.inr ⟨target, rfl⟩)

theorem OwnedBy.neighbour {id other : String} (owned : OwnedBy view id path) {edge : GraphEdge}
    (inside : edge ∈ view.edges) (joins : edge.Joins id other) :
    ∃ node ∈ view.nodes, node.id = other ∧ node.kind ≠ .external ∧ node.filePath? = some path := by
  rcases joins with ⟨source, rfl⟩ | ⟨target, rfl⟩
  · exact owned.outgoing edge inside source
  · exact owned.incoming edge inside target

theorem OwnedBy.named {id : String} (owned : OwnedBy view id path) : path ≠ "" := by
  obtain ⟨edge, inside, touches⟩ := owned.touched
  have joins : ∃ other, edge.Joins id other := by
    rcases touches with source | target
    · exact ⟨edge.target, .inl ⟨source, rfl⟩⟩
    · exact ⟨edge.source, .inr ⟨target, rfl⟩⟩
  obtain ⟨other, joins⟩ := joins
  obtain ⟨node, -, -, -, located⟩ := owned.neighbour inside joins
  exact (SymbolNode.filePath?_eq_some_iff.mp located).2

theorem absorbedBy_iff_ownedBy (distinct : (view.nodes.map SymbolNode.id).Nodup)
    (member : node ∈ view.nodes) :
    AbsorbedBy view path node ↔ OwnedBy view node.id path := by
  refine ⟨AbsorbedBy.ownedBy, fun owned => ?_⟩
  have only {first second : SymbolNode} (left : first ∈ view.nodes) (right : second ∈ view.nodes)
      (same : first.id = second.id) : first = second :=
    List.inj_on_of_nodup_map distinct left right same
  obtain ⟨found, listed, same, external⟩ := owned.external
  obtain rfl : found = node := only listed member same
  refine ⟨member, external, owned.touched, ?_, owned.named, ?_⟩
  · intro edge inside other there kind joins
    obtain ⟨neighbour, also, equal, internal, -⟩ := owned.neighbour inside joins
    obtain rfl : neighbour = other := only also there equal
    exact internal kind
  · intro edge inside id joins
    obtain ⟨neighbour, there, equal, -, located⟩ := owned.neighbour inside joins
    exact ⟨neighbour, there, equal, (SymbolNode.filePath?_eq_some_iff.mp located).1⟩

end Criterion

namespace Collapse

variable {nodes : TextMap SymbolNode} {homes : TextMap String}

/-- The homes of external nodes do not depend on the order of the edges, nor on how often each
stands there. -/
theorem homes_congr {edges others : List GraphEdge} (same : ∀ edge, edge ∈ edges ↔ edge ∈ others) :
    Collapse.homes nodes edges = Collapse.homes nodes others := by
  apply Std.ExtTreeMap.ext_getElem?
  intro id
  apply Option.ext
  intro path
  simp only [homes_eq_some_iff, surroundings_eq_home_iff, same]

/-- The names by file with the name of one more folded node. -/
def addName (nodes : TextMap SymbolNode) (map : TextMap TextSet) (entry : String × String) :
    TextMap TextSet :=
  map.insert entry.2 (match nodes[entry.1]? with
    | some node => (map.getD entry.2 ∅).insert node.name
    | none => map.getD entry.2 ∅)

theorem groups_eq_map (nodes : TextMap SymbolNode) (homes : TextMap String) :
    groups nodes homes = (homes.toList.foldl (addName nodes) ∅).toList.map fun entry =>
      ⟨groupId entry.1, entry.1, entry.2⟩ := rfl

theorem mem_addName {map : TextMap TextSet} {entry : String × String} {path name : String} :
    name ∈ (addName nodes map entry).getD path ∅ ↔ name ∈ map.getD path ∅ ∨
      entry.2 = path ∧ ∃ node, nodes[entry.1]? = some node ∧ node.name = name := by
  rw [Std.ExtTreeMap.getD_eq_getD_getElem?, addName, TextMap.get?_put]
  by_cases same : entry.2 = path
  · subst same
    cases found : nodes[entry.1]? with
    | none => simp
    | some node => simp [or_comm]
  · simp [same, Std.ExtTreeMap.getD_eq_getD_getElem?]

theorem mem_foldl_addName {entries : List (String × String)} {map : TextMap TextSet}
    {path name : String} :
    name ∈ (entries.foldl (addName nodes) map).getD path ∅ ↔ name ∈ map.getD path ∅ ∨
      ∃ id, (id, path) ∈ entries ∧ ∃ node, nodes[id]? = some node ∧ node.name = name := by
  induction entries generalizing map with
  | nil => simp
  | cons entry rest ih =>
      rw [List.foldl_cons, ih, mem_addName, or_assoc]
      apply or_congr_right
      constructor
      · rintro (⟨rfl, named⟩ | ⟨id, later, named⟩)
        · exact ⟨entry.1, List.mem_cons_self, named⟩
        · exact ⟨id, List.mem_cons_of_mem entry later, named⟩
      · rintro ⟨id, listed, named⟩
        rcases List.mem_cons.mp listed with rfl | later
        · exact .inl ⟨rfl, named⟩
        · exact .inr ⟨id, later, named⟩

theorem mem_names_iff {group : ExternalGroup} (member : group ∈ groups nodes homes)
    {name : String} :
    name ∈ group.names ↔
      ∃ id : String, homes[id]? = some group.filePath ∧ ∃ node,
        nodes[id]? = some node ∧ node.name = name := by
  rw [groups_eq_map] at member
  obtain ⟨⟨path, names⟩, listed, rfl⟩ := List.mem_map.mp member
  have stored := Std.ExtTreeMap.mem_toList_iff_getElem?_eq_some.mp listed
  have folded := @mem_foldl_addName nodes homes.toList ∅ path name
  simp only [Std.ExtTreeMap.getD_eq_getD_getElem?, stored, Std.ExtTreeMap.getElem?_empty,
    Option.getD_some, Option.getD_none, Std.ExtTreeSet.not_mem_empty, false_or,
    Std.ExtTreeMap.mem_toList_iff_getElem?_eq_some] at folded
  exact folded

theorem groups_pairwise_lt (nodes : TextMap SymbolNode) (homes : TextMap String) :
    ((groups nodes homes).map ExternalGroup.filePath).Pairwise (· < ·) := by
  rw [groups_eq_map, List.map_map, List.pairwise_map]
  apply List.Pairwise.imp _ Std.ExtTreeMap.ordered_keys_toList
  intro first second before
  exact compareOfLessAndEq_eq_lt.mp before

end Collapse

theorem TextSet.size_eq_ncard (set : TextSet) : set.size = Set.ncard {text | text ∈ set} := by
  have distinct : set.toList.Nodup := by
    apply List.Pairwise.imp _ Std.ExtTreeSet.distinct_toList
    rintro first second apart rfl
    exact apart Std.ReflCmp.compare_self
  have members : {text | text ∈ set} = (set.toList.toFinset : Set String) := by
    ext text
    simp
  rw [members, Set.ncard_coe_finset, List.toFinset_card_of_nodup distinct,
    Std.ExtTreeSet.length_toList]

/-- The nodes that folding leaves, and the groups into which the others go. -/
structure FoldedNodes (view : GraphView) (result : CollapsedGraph) : Prop where
  kept : ∃ kept, result.nodes = kept ++ result.groups.map Collapse.groupNode ∧
    kept.Sublist view.nodes ∧
    ∀ node ∈ view.nodes, node ∈ kept ↔ ¬∃ path, AbsorbedBy view path node
  files : ∀ path, path ∈ result.groups.map ExternalGroup.filePath ↔ ∃ node,
    AbsorbedBy view path node
  names : ∀ group ∈ result.groups, ∀ name,
    name ∈ group.names ↔ ∃ node, AbsorbedBy view group.filePath node ∧ node.name = name
  counted : ∀ group ∈ result.groups,
    let count := Set.ncard {name | ∃ node, AbsorbedBy view group.filePath node ∧ node.name = name}
    (Collapse.groupNode group).summary =
      toString count ++ " external symbol" ++ if count = 1 then "" else "s"
  sorted : (result.groups.map ExternalGroup.filePath).Pairwise (· < ·)

/-- Folding takes exactly the external nodes that the order-free criterion names, each into the
group of its file, and leaves nodes and groups the same for every order of the edges. -/
theorem collapseExternals_absorbs (view : GraphView)
    (distinct : (view.nodes.map SymbolNode.id).Nodup) :
    FoldedNodes view (collapseExternals view) ∧ ∀ edges, edges.Perm view.edges →
      (collapseExternals ⟨view.nodes, edges⟩).nodes = (collapseExternals view).nodes ∧
      (collapseExternals ⟨view.nodes, edges⟩).groups = (collapseExternals view).groups := by
  have owners (id path : String) := @Collapse.homes_eq_some_iff_ownedBy view distinct id path
  have holders (path name : String) :
      (∃ id : String, (Collapse.homes (Collapse.byId view.nodes) view.edges)[id]? = some path ∧
        ∃ node, (Collapse.byId view.nodes)[id]? = some node ∧ node.name = name) ↔
      ∃ node, AbsorbedBy view path node ∧ node.name = name := by
    constructor
    · rintro ⟨id, home, node, found, rfl⟩
      obtain ⟨member, rfl⟩ := (Collapse.byId_eq_some_iff distinct).mp found
      exact ⟨node, (absorbedBy_iff_ownedBy distinct member).mpr ((owners _ _).mp home), rfl⟩
    · rintro ⟨node, absorbed, rfl⟩
      exact ⟨node.id, (owners _ _).mpr absorbed.ownedBy, node,
        (Collapse.byId_eq_some_iff distinct).mpr ⟨absorbed.member, rfl⟩, rfl⟩
  have names : ∀ group ∈ (collapseExternals view).groups, ∀ name,
      name ∈ group.names ↔ ∃ node, AbsorbedBy view group.filePath node ∧ node.name = name := by
    intro group member name
    rw [Collapse.mem_names_iff member, holders]
  refine ⟨⟨⟨_, rfl, List.filter_sublist, ?_⟩, ?_, names, ?_, Collapse.groups_pairwise_lt _ _⟩, ?_⟩
  · intro node member
    rw [List.mem_filter, Option.isNone_iff_eq_none, Option.eq_none_iff_forall_ne_some]
    simp only [absorbedBy_iff_ownedBy distinct member, ne_eq, owners, member, true_and, not_exists]
  · intro path
    refine (@Collapse.mem_groups_iff _ _ path).trans ?_
    constructor
    · rintro ⟨id, home⟩
      obtain ⟨node, member, rfl, -⟩ := ((owners id path).mp home).external
      exact ⟨node, (absorbedBy_iff_ownedBy distinct member).mpr ((owners _ _).mp home)⟩
    · rintro ⟨node, absorbed⟩
      exact ⟨node.id, (owners _ _).mpr absorbed.ownedBy⟩
  · intro group member count
    have size : group.names.size = count := by
      rw [TextSet.size_eq_ncard]
      simp only [names group member]
      rfl
    rw [Collapse.groupNode, size]
  · intro edges same
    have homes : Collapse.homes (Collapse.byId view.nodes) edges =
        Collapse.homes (Collapse.byId view.nodes) view.edges :=
      Collapse.homes_congr fun edge => same.mem_iff
    simp only [collapseExternals, homes, and_self]

/-- One file with two imports of its own, of which one also points back, and external nodes that are
shared between files, loop, have a lost neighbour or none. -/
def ownAndSharedImports : GraphView where
  nodes :=
    [⟨"file:b.py", "b.py", .file, "", none, none, some (.ofFile "b.py"), some "b"⟩,
     ⟨"file:a.py", "a.py", .file, "", none, none, some (.ofFile "a.py"), some "a"⟩,
     ⟨"external:os", "os", .external, "", none, none, none, none⟩,
     ⟨"external:re", "re", .external, "", none, none, some (.ofFile "b.py"), none⟩,
     ⟨"external:io", "io", .external, "", none, none, none, none⟩,
     ⟨"external:self", "self", .external, "", none, none, none, none⟩,
     ⟨"external:lost", "lost", .external, "", none, none, none, none⟩,
     ⟨"external:idle", "idle", .external, "", none, none, none, none⟩]
  edges :=
    [⟨"file:b.py", "external:io", .imports, .low⟩, ⟨"file:a.py", "external:os", .imports, .low⟩,
     ⟨"external:re", "file:a.py", .calls, .low⟩, ⟨"file:a.py", "external:re", .imports, .low⟩,
     ⟨"file:a.py", "external:io", .imports, .low⟩, ⟨"external:self", "external:self", .calls, .low⟩,
     ⟨"file:a.py", "external:self", .calls, .low⟩, ⟨"symbol:gone", "external:lost", .calls, .low⟩]

theorem collapseExternals_absorbs_ownImports :
    (ownAndSharedImports.nodes.map SymbolNode.id).Nodup ∧
      FoldedNodes ownAndSharedImports (collapseExternals ownAndSharedImports) ∧
      (collapseExternals ⟨ownAndSharedImports.nodes, ownAndSharedImports.edges.reverse⟩).nodes =
        (collapseExternals ownAndSharedImports).nodes ∧
      ((collapseExternals ownAndSharedImports).nodes.map fun node => (node.id, node.summary)) =
        [("file:b.py", ""), ("file:a.py", ""), ("external:io", ""), ("external:self", ""),
          ("external:lost", ""),
         ("external:idle", ""), ("external-group:a.py", "2 external symbols")] := by
  obtain ⟨folded, ordered⟩ := collapseExternals_absorbs ownAndSharedImports (by decide)
  exact ⟨by decide, folded, (ordered _ (List.reverse_perm _)).1, by decide +kernel⟩

end SourceAtlas
