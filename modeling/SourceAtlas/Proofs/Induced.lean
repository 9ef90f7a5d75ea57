/- The view of a group is the part of an index that its nodes and the external nodes next to them
span. Externals are added once: those next to an added one stay outside, and the same question asked
of the view is answered by the view itself. -/
import Mathlib.Data.List.Sort
import SourceAtlas.Proofs.Groups

namespace SourceAtlas

/-- A node lies in a file of a group. -/
def SymbolNode.LiesInGroup (node : SymbolNode) (group : String) : Prop :=
  ∃ path, node.filePath? = some path ∧ GraphView.inGroup group path = true

/-- What the scope of a group is to show: a node in its files, or an external node that an edge
joins to such a node. -/
def RepoIndex.Concerns (index : RepoIndex) (group : String) (node : SymbolNode) : Prop :=
  node.LiesInGroup group ∨ node.kind = .external ∧ ∃ edge ∈ index.edges,
    ∃ (id : String) (other : SymbolNode),
    index.nodes[id]? = some other ∧ other.LiesInGroup group ∧ edge.Joins node.id id

namespace GraphView

/-- The part of an index that some of its nodes span: these in order of their ids, and the edges
between them in the order of the index. -/
structure InducedBy (view : GraphView) (index : RepoIndex) (member : SymbolNode → Prop) : Prop where
  nodes : ∀ node, node ∈ view.nodes ↔ index.nodes[node.id]? = some node ∧ member node
  ordered : view.nodes.Pairwise fun first second => first.id < second.id
  edges : view.edges = index.edges.filter fun edge =>
    edge.source ∈ view.nodes.map SymbolNode.id ∧ edge.target ∈ view.nodes.map SymbolNode.id

/-- The index that holds nothing but a view. -/
def toIndex (view : GraphView) : RepoIndex := .ofGraph (Collapse.byId view.nodes) view.edges

theorem eq_of_ordered {nodes others : List SymbolNode}
    (ordered : nodes.Pairwise fun first second => first.id < second.id)
    (also : others.Pairwise fun first second => first.id < second.id)
    (same : ∀ node, node ∈ nodes ↔ node ∈ others) : nodes = others := by
  have irreflexive : Std.Irrefl fun first second : SymbolNode => first.id < second.id :=
    ⟨fun node => String.lt_irrefl node.id⟩
  have antisymmetric : Std.Antisymm fun first second : SymbolNode => first.id < second.id :=
    ⟨fun _ _ before after => absurd before (String.lt_asymm after)⟩
  exact ordered.eq_of_mem_iff also same

section Restriction

variable {index : RepoIndex} {group : String}

/-- An edge adds the external node at one end if its other end is inside. -/
theorem neighbour?_eq_some_iff {ids : TextSet} {edge : GraphEdge} {id : String} :
    neighbour? index ids edge = some id ↔ id ∉ ids ∧
      (∃ node, index.nodes[id]? = some node ∧ node.kind = .external) ∧ ∃ other ∈ ids,
        edge.Joins id other := by
  have external (id : String) : ((index.nodes[id]?).any SymbolNode.isExternal) = true ↔
      ∃ node, index.nodes[id]? = some node ∧ node.kind = .external := Collapse.isExternal_iff
  have missing (id : String) : (!ids.contains id) = true ↔ id ∉ ids := by
    rw [Bool.not_eq_true', ← Bool.not_eq_true, Std.ExtTreeSet.contains_iff_mem]
  simp only [neighbour?, Bool.and_eq_true, Std.ExtTreeSet.contains_iff_mem, missing, external]
  constructor
  · intro found
    split at found
    · next outward =>
        cases found
        exact ⟨outward.1.2, outward.2, _, outward.1.1, .inr ⟨rfl, rfl⟩⟩
    · split at found
      · next inward =>
          cases found
          exact ⟨inward.1.2, inward.2, _, inward.1.1, .inl ⟨rfl, rfl⟩⟩
      · cases found
  · rintro ⟨outside, known, other, inside, ⟨rfl, rfl⟩ | ⟨rfl, rfl⟩⟩
    · rw [if_neg fun outward => outside outward.1.1, if_pos ⟨⟨inside, outside⟩, known⟩]
    · rw [if_pos ⟨⟨inside, outside⟩, known⟩]

variable (keyed : ∀ (id : String) (node : SymbolNode), index.nodes[id]? = some node → node.id = id)
include keyed

theorem mem_located_iff_liesInGroup {id : String} :
    id ∈ located index group ↔ ∃ node, index.nodes[id]? = some node ∧ node.LiesInGroup group := by
  rw [mem_located_iff]
  constructor
  · rintro ⟨node, listed, inside, rfl⟩
    obtain ⟨key, found⟩ := TextMap.mem_values.mp listed
    rw [keyed key node found]
    exact ⟨node, found, (Option.any_eq_true _ _).mp inside⟩
  · rintro ⟨node, found, inside⟩
    exact ⟨node, TextMap.mem_values.mpr ⟨id, found⟩, (Option.any_eq_true _ _).mpr inside,
      keyed id node found⟩

/-- The ids that a scope takes in are those of the nodes that concern its group. -/
theorem mem_widened_iff {id : String} :
    id ∈ (index.edges.filterMap (neighbour? index (located index group))).foldl
      (fun ids id => ids.insert id)
        (located index group) ↔
      ∃ node, index.nodes[id]? = some node ∧ index.Concerns group node := by
  have inside {id : String} := @mem_located_iff_liesInGroup index group keyed id
  rw [TextSet.mem_foldl_insert, List.mem_filterMap]
  constructor
  · rintro (located | ⟨edge, listed, found⟩)
    · obtain ⟨node, found, lies⟩ := inside.mp located
      exact ⟨node, found, .inl lies⟩
    · obtain ⟨-, ⟨node, known, external⟩, other, located, joins⟩ := neighbour?_eq_some_iff.mp found
      obtain ⟨neighbour, there, lies⟩ := inside.mp located
      rw [← keyed id node known] at joins
      exact ⟨node, known, .inr ⟨external, edge, listed, other, neighbour, there, lies, joins⟩⟩
  · rintro ⟨node, known, lies | ⟨external, edge, listed, other, neighbour, there, lies, joins⟩⟩
    · exact .inl (inside.mpr ⟨node, known, lies⟩)
    · by_cases already : id ∈ located index group
      · exact .inl already
      · rw [keyed id node known] at joins
        exact .inr ⟨edge, listed, neighbour?_eq_some_iff.mpr
          ⟨already, ⟨node, known, external⟩, other, inside.mpr ⟨neighbour, there, lies⟩, joins⟩⟩

theorem values_pairwise_lt :
    index.nodes.values.Pairwise fun first second => first.id < second.id := by
  have entries : index.nodes.toList.Pairwise fun first second => first.2.id < second.2.id := by
    apply List.Pairwise.imp_of_mem _ Std.ExtTreeMap.ordered_keys_toList
    intro first second here there before
    rw [keyed first.1 first.2 (Std.ExtTreeMap.mem_toList_iff_getElem?_eq_some.mp here),
      keyed second.1 second.2 (Std.ExtTreeMap.mem_toList_iff_getElem?_eq_some.mp there)]
    exact compareOfLessAndEq_eq_lt.mp before
  rw [TextMap.values_eq_map_toList, List.pairwise_map]
  exact entries

/-- What stays of an index inside a set of ids is spanned by the nodes with these ids. -/
theorem restrict_inducedBy {ids : TextSet} {member : SymbolNode → Prop}
    (known : ∀ id, id ∈ ids ↔ ∃ node, index.nodes[id]? = some node ∧ member node) :
    (restrict index ids).InducedBy index member := by
  have nodes (node : SymbolNode) : node ∈ (restrict index ids).nodes ↔
      index.nodes[node.id]? = some node ∧ member node := by
    rw [restrict, List.mem_filter, Std.ExtTreeSet.contains_iff_mem, known, TextMap.mem_values]
    constructor
    · rintro ⟨⟨key, found⟩, other, there, holds⟩
      rw [keyed key node found, found] at there
      cases there
      rw [keyed key node found]
      exact ⟨found, holds⟩
    · rintro ⟨found, holds⟩
      exact ⟨⟨node.id, found⟩, node, found, holds⟩
  have listed (id : String) : id ∈ (restrict index ids).nodes.map SymbolNode.id ↔ id ∈ ids := by
    rw [List.mem_map, known]
    constructor
    · rintro ⟨node, inside, rfl⟩
      exact ⟨node, (nodes node).mp inside⟩
    · rintro ⟨node, found, holds⟩
      have own := keyed id node found
      exact ⟨node, (nodes node).mpr ⟨own.symm ▸ found, holds⟩, own⟩
  refine ⟨nodes, (values_pairwise_lt keyed).filter _, ?_⟩
  simp only [listed]
  rw [restrict]
  apply List.filter_congr
  intro edge _
  rw [Bool.eq_iff_iff]
  simp

variable
  (matched : ∃ (id : String) (node : SymbolNode),
    index.nodes[id]? = some node ∧ node.LiesInGroup group)
include matched

theorem ofScope_inducedBy :
    (ofScope index (.group group)).InducedBy index (index.Concerns group) := by
  obtain ⟨id, node, found, lies⟩ := matched
  have filled : ¬(located index group).isEmpty = true := by
    intro empty
    have inside := (mem_located_iff_liesInGroup keyed).mpr ⟨node, found, lies⟩
    rw [Std.ExtTreeSet.isEmpty_iff.mp empty] at inside
    exact Std.ExtTreeSet.not_mem_empty inside
  have part : ofScope index (.group group) = restrict index
      ((index.edges.filterMap (neighbour? index (located index group))).foldl
        (fun ids id => ids.insert id)
        (located index group)) := by
    simp only [ofScope]
    rw [if_neg filled]
  rw [part]
  exact restrict_inducedBy keyed fun id => mem_widened_iff keyed

end Restriction

section Again

variable {view : GraphView} {index : RepoIndex} {member : SymbolNode → Prop}

theorem InducedBy.distinct (induced : view.InducedBy index member) :
    (view.nodes.map SymbolNode.id).Nodup := by
  rw [List.Nodup, List.pairwise_map]
  apply List.Pairwise.imp _ induced.ordered
  intro first second before same
  rw [same] at before
  exact String.lt_irrefl _ before

theorem InducedBy.get?_toIndex (induced : view.InducedBy index member) {id : String}
    {node : SymbolNode} :
    view.toIndex.nodes[id]? = some node ↔ node ∈ view.nodes ∧ node.id = id :=
  Collapse.byId_eq_some_iff induced.distinct

/-- A view of a view that keeps every node is the view itself. -/
theorem InducedBy.eq_of_keeps (induced : view.InducedBy index member) {again : GraphView}
    {kept : SymbolNode → Prop} (also : again.InducedBy view.toIndex kept)
    (keeps : ∀ node ∈ view.nodes, kept node) : again = view := by
  have nodes : again.nodes = view.nodes := by
    apply eq_of_ordered also.ordered induced.ordered
    intro node
    rw [also.nodes, induced.get?_toIndex]
    constructor
    · rintro ⟨⟨listed, -⟩, -⟩
      exact listed
    · intro listed
      exact ⟨⟨listed, rfl⟩, keeps node listed⟩
  have edges : again.edges = view.edges := by
    rw [also.edges, nodes]
    apply List.filter_eq_self.mpr
    intro edge listed
    change edge ∈ view.edges at listed
    rw [induced.edges] at listed
    exact (List.mem_filter.mp listed).2
  cases again
  cases view
  cases nodes
  cases edges
  rfl

variable {group : String} (concerned : view.InducedBy index (index.Concerns group))
  (keyed : ∀ (id : String) (node : SymbolNode), index.nodes[id]? = some node → node.id = id)
include concerned keyed

theorem InducedBy.get?_of_liesInGroup {id : String} {node : SymbolNode}
    (found : index.nodes[id]? = some node) (lies : node.LiesInGroup group) :
    view.toIndex.nodes[id]? = some node := by
  obtain rfl := keyed id node found
  exact concerned.get?_toIndex.mpr ⟨(concerned.nodes node).mpr ⟨found, .inl lies⟩, rfl⟩

/-- What makes a node concern a group is shown with it: the neighbour in the group and the edge to
it. -/
theorem InducedBy.concerns_toIndex {node : SymbolNode} (listed : node ∈ view.nodes) :
    view.toIndex.Concerns group node := by
  obtain ⟨-, lies | ⟨external, edge, inside, id, other, there, lies, joins⟩⟩ :=
    (concerned.nodes node).mp listed
  · exact .inl lies
  · have shown := concerned.get?_of_liesInGroup keyed there lies
    obtain ⟨member, rfl⟩ := concerned.get?_toIndex.mp shown
    refine .inr ⟨external, edge, ?_, other.id, other, shown, lies, joins⟩
    change edge ∈ view.edges
    rw [concerned.edges, List.mem_filter, decide_eq_true_iff]
    refine ⟨inside, ?_⟩
    rcases joins with ⟨source, target⟩ | ⟨target, source⟩
    · rw [source, target]
      exact ⟨List.mem_map_of_mem listed, List.mem_map_of_mem member⟩
    · rw [source, target]
      exact ⟨List.mem_map_of_mem member, List.mem_map_of_mem listed⟩

end Again

/-- A group that some node lies in is shown as the part of the index that its nodes and the external
nodes next to them span, and what is shown would be shown again. -/
theorem ofScope_induces (index : RepoIndex)
    (keyed : ∀ (id : String) (node : SymbolNode), index.nodes[id]? = some node → node.id = id)
    (group : String)
    (matched : ∃ (id : String) (node : SymbolNode),
      index.nodes[id]? = some node ∧ node.LiesInGroup group) :
    (ofScope index (.group group)).InducedBy index (index.Concerns group) ∧
      ofScope (ofScope index (.group group)).toIndex (.group group) =
        ofScope index (.group group) := by
  have induced := ofScope_inducedBy keyed matched
  refine ⟨induced, ?_⟩
  obtain ⟨id, node, found, lies⟩ := matched
  have again := ofScope_inducedBy (fun id node shown => (induced.get?_toIndex.mp shown).2)
    ⟨id, node, induced.get?_of_liesInGroup keyed found lies, lies⟩
  exact induced.eq_of_keeps again fun node listed => induced.concerns_toIndex keyed listed

/-- A group with a function, an external node of its own and two external neighbours, of which one
lies in another directory. Beyond them are an external next to an external and a caller from
elsewhere. -/
def sharedLibrary : RepoIndex :=
  toIndex
    { nodes :=
        [⟨"symbol:f", "f", .function, "", none, none, some (.ofFile "lib/a.py"), some "lib.a"⟩,
         ⟨"symbol:g", "g", .function, "", none, none, some (.ofFile "app/b.py"), some "app.b"⟩,
         ⟨"external:own", "own", .external, "", none, none, some (.ofFile "lib/c.py"), none⟩,
         ⟨"external:os", "os", .external, "", none, none, none, none⟩,
         ⟨"external:hook", "hook", .external, "", none, none, some (.ofFile "app/b.py"), none⟩,
         ⟨"external:far", "far", .external, "", none, none, none, none⟩]
      edges :=
        [⟨"symbol:g", "symbol:f", .calls, .high⟩, ⟨"external:hook", "symbol:f", .calls, .low⟩,
         ⟨"external:os", "external:far", .calls, .low⟩,
         ⟨"external:own", "external:os", .calls, .low⟩,
           ⟨"external:os", "external:hook", .imports, .low⟩] }

theorem ofScope_induces_sharedLibrary :
    (∀ (id : String) (node : SymbolNode), sharedLibrary.nodes[id]? = some node → node.id = id) ∧
      (∃ (id : String) (node : SymbolNode),
        sharedLibrary.nodes[id]? = some node ∧ node.LiesInGroup "lib") ∧
      (ofScope sharedLibrary (.group "lib")).InducedBy sharedLibrary
        (sharedLibrary.Concerns "lib") ∧
      ofScope (ofScope sharedLibrary (.group "lib")).toIndex (.group "lib") =
        ofScope sharedLibrary (.group "lib") ∧
      (ofScope sharedLibrary (.group "lib")).nodes.map SymbolNode.id =
        ["external:hook", "external:os", "external:own", "symbol:f"] ∧
      (ofScope sharedLibrary (.group "lib")).edges.length = 3 := by
  have keyed (id : String) (node : SymbolNode) (found : sharedLibrary.nodes[id]? = some node) :
      node.id = id :=
    ((Collapse.byId_eq_some_iff (by decide)).mp found).2
  have matched : ∃ (id : String) (node : SymbolNode),
      sharedLibrary.nodes[id]? = some node ∧ node.LiesInGroup "lib" :=
    ⟨"symbol:f", ⟨"symbol:f", "f", .function, "", none, none, some (.ofFile "lib/a.py"),
      some "lib.a"⟩, by decide +kernel, "lib/a.py", by decide, by decide⟩
  obtain ⟨induced, again⟩ := ofScope_induces sharedLibrary keyed "lib" matched
  exact ⟨keyed, matched, induced, again, by decide +kernel, by decide +kernel⟩

end GraphView

end SourceAtlas
