/- Folding external nodes is an exact quotient of a graph: which nodes are folded is decided by
their neighbours alone, and nodes, edges and groups all follow that decision. -/
import SourceAtlas.Proofs.TextMap
import SourceAtlas.View.Collapse

namespace SourceAtlas

/-- An external node whose edges all lead to or from nodes of one file, and which has an edge. -/
structure OwnedBy (view : GraphView) (id path : String) : Prop where
  external : ∃ node ∈ view.nodes, node.id = id ∧ node.kind = .external
  touched : ∃ edge ∈ view.edges, edge.source = id ∨ edge.target = id
  outgoing : ∀ edge ∈ view.edges, edge.source = id →
    ∃ node ∈ view.nodes, node.id = edge.target ∧ node.kind ≠ .external ∧ node.filePath? = some path
  incoming : ∀ edge ∈ view.edges, edge.target = id →
    ∃ node ∈ view.nodes, node.id = edge.source ∧ node.kind ≠ .external ∧ node.filePath? = some path

@[simp] theorem Surroundings.join_eq_home_iff {first second : Surroundings} {path : String} :
    first.join second = .home path ↔ first = .home path ∧ second = .home path := by
  cases first with
  | mixed => simp [Surroundings.join]
  | home a =>
      cases second with
      | mixed => simp [Surroundings.join]
      | home b =>
          by_cases same : a = b
          · simp [Surroundings.join, same]
          · simp only [Surroundings.join, if_neg same, Surroundings.home.injEq, reduceCtorEq,
              false_iff]
            rintro ⟨rfl, rfl⟩
            exact same rfl

namespace Collapse

variable {view : GraphView} {nodes : TextMap SymbolNode} {edges : List GraphEdge}

/-- With distinct ids, looking an id up is searching the list for it. -/
theorem byId_eq_some_iff {list : List SymbolNode} (distinct : (list.map SymbolNode.id).Nodup)
    {id : String} {node : SymbolNode} :
    (byId list)[id]? = some node ↔ node ∈ list ∧ node.id = id := by
  refine (TextMap.get?_fill_empty distinct id node).trans ⟨?_, ?_⟩
  · rintro ⟨found, member, same, rfl⟩
    exact ⟨member, same⟩
  · rintro ⟨member, same⟩
    exact ⟨node, member, same, rfl⟩

theorem isExternal_iff {id : String} :
    isExternal nodes id = true ↔ ∃ node, nodes[id]? = some node ∧ node.kind = .external := by
  simp [isExternal, SymbolNode.isExternal, Option.any_eq_true]

theorem surroundingsOf_eq_home_iff {id path : String} :
    surroundingsOf nodes id = .home path ↔
      ∃ node, nodes[id]? = some node ∧ node.kind ≠ .external ∧ node.filePath? = some path := by
  cases found : nodes[id]? with
  | none => simp [surroundingsOf, isExternal, found]
  | some node =>
      by_cases external : node.kind = .external
      · simp [surroundingsOf, isExternal, found, SymbolNode.isExternal, external]
      · cases file : node.filePath? <;>
          simp [surroundingsOf, isExternal, found, SymbolNode.isExternal, external, file]

/-- What the edges say of an external node adds up to one file exactly when each says that file. -/
theorem gather_eq_home_iff (seen : List (String × Surroundings)) (map : TextMap Surroundings)
    (id path : String) :
    (seen.foldl (fun map (id, seen) =>
      map.insert id (match map[id]? with
        | some known => known.join seen
        | none => seen)) map)[id]? = some (.home path) ↔
      (map[id]? = some (.home path) ∨ map[id]? = none ∧ ∃ what, (id, what) ∈ seen) ∧
        ∀ what, (id, what) ∈ seen → what = .home path := by
  induction seen generalizing map with
  | nil => simp
  | cons head rest ih =>
      obtain ⟨key, what⟩ := head
      rw [List.foldl_cons, ih, TextMap.get?_put]
      by_cases same : key = id
      · subst same
        cases known : map[key]? with
        | none =>
            simp only [if_true, Option.some.injEq, reduceCtorEq, false_and, or_false,
              false_or, true_and, List.mem_cons, Prod.mk.injEq]
            constructor
            · rintro ⟨here, others⟩
              refine ⟨⟨what, .inl rfl⟩, ?_⟩
              rintro other (rfl | member)
              · exact here
              · exact others other member
            · rintro ⟨_, all⟩
              exact ⟨all what (.inl rfl), fun other member => all other (.inr member)⟩
        | some before =>
            simp only [if_true, Option.some.injEq, reduceCtorEq, false_and, or_false,
              List.mem_cons, Prod.mk.injEq, Surroundings.join_eq_home_iff, true_and]
            constructor
            · rintro ⟨⟨earlier, here⟩, others⟩
              refine ⟨earlier, ?_⟩
              rintro other (rfl | member)
              · exact here
              · exact others other member
            · rintro ⟨earlier, all⟩
              exact ⟨⟨earlier, all what (.inl rfl)⟩, fun other member => all other (.inr member)⟩
      · have skip : ∀ other, (id, other) ∈ (key, what) :: rest ↔ (id, other) ∈ rest := by
          simp [Ne.symm same]
        simp only [if_neg same, skip]

theorem mem_observations_iff {edge : GraphEdge} {id : String} {what : Surroundings} :
    (id, what) ∈ observations nodes edge ↔ isExternal nodes id = true ∧
      (edge.source = id ∧ what = surroundingsOf nodes edge.target ∨
        edge.target = id ∧ what = surroundingsOf nodes edge.source) := by
  unfold observations
  split <;> split <;> simp <;> grind

theorem surroundings_eq_home_iff {id path : String} :
    (surroundings nodes edges)[id]? = some (.home path) ↔ isExternal nodes id = true ∧
      (∃ edge ∈ edges, edge.source = id ∨ edge.target = id) ∧
      ∀ edge ∈ edges, (edge.source = id → surroundingsOf nodes edge.target = .home path) ∧
        (edge.target = id → surroundingsOf nodes edge.source = .home path) := by
  refine (gather_eq_home_iff (edges.flatMap (observations nodes)) ∅ id path).trans ?_
  simp only [Std.ExtTreeMap.getElem?_empty, reduceCtorEq, false_or, true_and, List.mem_flatMap,
    mem_observations_iff]
  constructor
  · rintro ⟨⟨what, edge, member, external, touches⟩, all⟩
    refine ⟨external, ⟨edge, member, ?_⟩, fun other inside => ⟨fun out => ?_, fun into => ?_⟩⟩
    · exact touches.imp And.left And.left
    · exact all _ ⟨other, inside, external, .inl ⟨out, rfl⟩⟩
    · exact all _ ⟨other, inside, external, .inr ⟨into, rfl⟩⟩
  · rintro ⟨external, ⟨edge, member, touches⟩, all⟩
    constructor
    · rcases touches with out | into
      · exact ⟨_, edge, member, external, .inl ⟨out, rfl⟩⟩
      · exact ⟨_, edge, member, external, .inr ⟨into, rfl⟩⟩
    · rintro what ⟨other, inside, _, ⟨out, rfl⟩ | ⟨into, rfl⟩⟩
      · exact (all other inside).1 out
      · exact (all other inside).2 into

/-- The file that a node's surroundings amount to, if any. -/
def homeOf? : String × Surroundings → Option (String × String)
  | (id, .home path) => some (id, path)
  | (_, .mixed) => none

@[simp] theorem homeOf?_eq_some_iff {entry : String × Surroundings} {found : String × String} :
    homeOf? entry = some found ↔ entry = (found.1, .home found.2) := by
  obtain ⟨id, known⟩ := entry
  cases known <;> simp [homeOf?, Prod.ext_iff]

theorem homes_eq_fill (nodes : TextMap SymbolNode) (edges : List GraphEdge) :
    homes nodes edges = ((surroundings nodes edges).toList.filterMap homeOf?).foldl
      (fun map entry => map.insert entry.1 entry.2) ∅ := by
  rw [List.foldl_filterMap, homes]
  congr 1
  funext map entry
  obtain ⟨id, known⟩ := entry
  cases known <;> rfl

theorem homes_eq_some_iff {id path : String} :
    (homes nodes edges)[id]? = some path ↔ (surroundings nodes edges)[id]? = some (.home path) := by
  have distinct : (((surroundings nodes edges).toList.filterMap homeOf?).map Prod.fst).Nodup := by
    rw [List.Nodup, List.pairwise_map]
    refine List.Pairwise.filterMap homeOf? ?_
      (List.pairwise_map.mp (TextMap.nodup_keys_toList (surroundings nodes edges)))
    intro first second apart entry found other also
    rw [homeOf?_eq_some_iff.mp found, homeOf?_eq_some_iff.mp also] at apart
    exact apart
  rw [homes_eq_fill, TextMap.get?_fill_empty distinct,
    ← Std.ExtTreeMap.mem_toList_iff_getElem?_eq_some]
  constructor
  · rintro ⟨⟨found, file⟩, member, rfl, rfl⟩
    obtain ⟨entry, listed, same⟩ := List.mem_filterMap.mp member
    rwa [homeOf?_eq_some_iff.mp same] at listed
  · intro listed
    exact ⟨(id, path), List.mem_filterMap.mpr ⟨(id, .home path), listed, rfl⟩, rfl, rfl⟩

/-- The file of a folded node is the one that owns it. -/
theorem homes_eq_some_iff_ownedBy (distinct : (view.nodes.map SymbolNode.id).Nodup)
    {id path : String} :
    (homes (byId view.nodes) view.edges)[id]? = some path ↔ OwnedBy view id path := by
  rw [homes_eq_some_iff, surroundings_eq_home_iff]
  simp only [isExternal_iff, surroundingsOf_eq_home_iff, byId_eq_some_iff distinct, and_assoc]
  constructor
  · rintro ⟨⟨node, member, same, external⟩, touched, neighbours⟩
    exact ⟨⟨node, member, same, external⟩, touched, fun edge inside => (neighbours edge inside).1,
      fun edge inside => (neighbours edge inside).2⟩
  · rintro ⟨⟨node, member, same, external⟩, touched, outgoing, incoming⟩
    exact ⟨⟨node, member, same, external⟩, touched,
      fun edge inside => ⟨outgoing edge inside, incoming edge inside⟩⟩

section Groups

variable {homes : TextMap String}

theorem groups_id {group : ExternalGroup} (member : group ∈ groups nodes homes) :
    group.id = groupId group.filePath := by
  obtain ⟨⟨path, names⟩, _, rfl⟩ := List.mem_map.mp member
  rfl

theorem groups_nodup (nodes : TextMap SymbolNode) (homes : TextMap String) :
    ((groups nodes homes).map ExternalGroup.filePath).Nodup := by
  simp only [groups, List.map_map]
  exact TextMap.nodup_keys_toList _

/-- There is a group for each file with folded nodes, and for no other. -/
theorem mem_groups_iff {path : String} :
    path ∈ (groups nodes homes).map ExternalGroup.filePath ↔ ∃ id : String,
      homes[id]? = some path := by
  simp only [groups, List.map_map]
  change path ∈ List.map Prod.fst _ ↔ _
  rw [Std.ExtTreeMap.map_fst_toList_eq_keys, Std.ExtTreeMap.mem_keys]
  refine TextMap.mem_fill_iff.trans ?_
  simp only [Std.ExtTreeMap.not_mem_empty, false_or]
  constructor
  · rintro ⟨⟨id, file⟩, listed, rfl⟩
    exact ⟨id, Std.ExtTreeMap.mem_toList_iff_getElem?_eq_some.mp listed⟩
  · rintro ⟨id, found⟩
    exact ⟨(id, path), Std.ExtTreeMap.mem_toList_iff_getElem?_eq_some.mpr found, rfl⟩

end Groups

section Edges

variable {homes : TextMap String}

/-- An edge between the images of its ends. -/
def movedEdge (homes : TextMap String) (edge : GraphEdge) : GraphEdge :=
  { edge with source := moved homes edge.source, target := moved homes edge.target }

/-- Neither end of an edge is folded. -/
def stays (homes : TextMap String) (edge : GraphEdge) : Bool :=
  homes[edge.source]?.isNone && homes[edge.target]?.isNone

theorem moved_of_none {id : String} (free : homes[id]? = none) : moved homes id = id := by
  simp [moved, free]

theorem movedEdge_of_stays {edge : GraphEdge} (h : stays homes edge = true) :
    movedEdge homes edge = edge := by
  simp only [stays, Bool.and_eq_true, Option.isNone_iff_eq_none] at h
  simp [movedEdge, moved_of_none h.1, moved_of_none h.2]

theorem moveEdges_cons (made : List GraphEdge) (edge : GraphEdge) (rest : List GraphEdge) :
    moveEdges homes made (edge :: rest) =
      if stays homes edge then edge :: moveEdges homes made rest
      else if movedEdge homes edge ∈ made then moveEdges homes made rest
      else movedEdge homes edge :: moveEdges homes (movedEdge homes edge :: made) rest := rfl

theorem exists_of_mem_moveEdges {made list : List GraphEdge} {edge : GraphEdge}
    (member : edge ∈ moveEdges homes made list) :
    ∃ original ∈ list, movedEdge homes original = edge := by
  induction list generalizing made with
  | nil => cases member
  | cons head rest ih =>
      have later {made : List GraphEdge} (inside : edge ∈ moveEdges homes made rest) :
          ∃ original ∈ head :: rest, movedEdge homes original = edge := by
        obtain ⟨original, found, same⟩ := ih inside
        exact ⟨original, List.mem_cons_of_mem head found, same⟩
      rw [moveEdges_cons] at member
      split at member
      · next still =>
          rcases List.mem_cons.mp member with rfl | inside
          · exact ⟨edge, by simp, movedEdge_of_stays still⟩
          · exact later inside
      · split at member
        · exact later member
        · rcases List.mem_cons.mp member with rfl | inside
          · exact ⟨head, by simp, rfl⟩
          · exact later inside

/-- Every edge has its image among the edges, unless the image was made before. -/
theorem movedEdge_mem_moveEdges {made list : List GraphEdge} {edge : GraphEdge}
    (member : edge ∈ list) :
    movedEdge homes edge ∈ moveEdges homes made list ∨ movedEdge homes edge ∈ made := by
  induction list generalizing made with
  | nil => cases member
  | cons head rest ih =>
      rw [moveEdges_cons]
      split
      · next still =>
          rcases List.mem_cons.mp member with rfl | inside
          · exact .inl (by simp [movedEdge_of_stays still])
          · exact (ih inside).imp_left (List.mem_cons_of_mem head)
      · split
        · next known =>
            rcases List.mem_cons.mp member with rfl | inside
            · exact .inr known
            · exact ih inside
        · rcases List.mem_cons.mp member with rfl | inside
          · exact .inl (by simp)
          · rcases @ih (movedEdge homes head :: made) inside with found | old
            · exact .inl (List.mem_cons_of_mem _ found)
            · rcases List.mem_cons.mp old with same | earlier
              · exact .inl (by simp [same])
              · exact .inr earlier

variable {touches : GraphEdge → Bool} {list : List GraphEdge}
  (still : ∀ edge ∈ list, stays homes edge = true → touches edge = false)
  (shifts : ∀ edge ∈ list, stays homes edge = false → touches (movedEdge homes edge) = true)
include still shifts

theorem filter_untouched_moveEdges (made : List GraphEdge) :
    (moveEdges homes made list).filter (fun edge => !touches edge) = list.filter (stays homes) := by
  induction list generalizing made with
  | nil => rfl
  | cons head rest ih =>
      have further := ih (fun edge inside => still edge (List.mem_cons_of_mem head inside))
        (fun edge inside => shifts edge (List.mem_cons_of_mem head inside))
      rw [moveEdges_cons]
      cases here : stays homes head with
      | true => simp [here, still head (by simp) here, further]
      | false =>
          have gone := shifts head (by simp) here
          simp only [Bool.false_eq_true, if_false]
          split
          · simp [here, further]
          · simp [here, gone, further]

theorem nodup_touched_moveEdges (made : List GraphEdge) :
    ((moveEdges homes made list).filter touches).Nodup ∧
      ∀ edge ∈ (moveEdges homes made list).filter touches, edge ∉ made := by
  induction list generalizing made with
  | nil => simp [moveEdges]
  | cons head rest ih =>
      have further := ih (fun edge inside => still edge (List.mem_cons_of_mem head inside))
        (fun edge inside => shifts edge (List.mem_cons_of_mem head inside))
      rw [moveEdges_cons]
      cases here : stays homes head with
      | true =>
          simp only [if_true, List.filter_cons, still head (by simp) here,
            Bool.false_eq_true, if_false]
          exact further made
      | false =>
          simp only [Bool.false_eq_true, if_false]
          split
          · exact further made
          · next fresh =>
              obtain ⟨distinct, apart⟩ := further (movedEdge homes head :: made)
              rw [List.filter_cons, if_pos (shifts head (by simp) here)]
              refine ⟨List.nodup_cons.mpr ⟨fun again => ?_, distinct⟩, fun edge member old => ?_⟩
              · exact apart _ again (by simp)
              · rcases List.mem_cons.mp member with rfl | inside
                · exact fresh old
                · exact apart edge inside (List.mem_cons_of_mem _ old)

end Edges

theorem startsWith_groupId (path : String) :
    Text.startsWith (groupId path) "external-group:" = true := by
  delta groupId
  simp [Text.startsWith]

end Collapse

/-- Whether an edge leads to or from the node of a group. -/
def CollapsedGraph.touchesGroup (graph : CollapsedGraph) (edge : GraphEdge) : Bool :=
  graph.groups.any fun group => group.id = edge.source ∨ group.id = edge.target

/-- A folded graph as the quotient of a graph by a map from folded ids to the files that own
them. -/
structure QuotientBy (view : GraphView) (homes : TextMap String) (result : CollapsedGraph) :
    Prop where
  /-- The map is determined by the graph. -/
  owners : ∀ id path : String, homes[id]? = some path ↔ OwnedBy view id path
  nodes : result.nodes =
    (view.nodes.filter fun node => homes[node.id]?.isNone) ++ result.groups.map Collapse.groupNode
  internal : ∀ node ∈ view.nodes, node.kind ≠ .external → node ∈ result.nodes
  groupIds : ∀ group ∈ result.groups, group.id = Collapse.groupId group.filePath
  groupFiles : (result.groups.map ExternalGroup.filePath).Nodup ∧
    ∀ path, path ∈ result.groups.map ExternalGroup.filePath ↔ ∃ id : String, homes[id]? = some path
  kept : (result.edges.filter fun edge => !result.touchesGroup edge) =
    view.edges.filter fun edge => homes[edge.source]?.isNone && homes[edge.target]?.isNone
  image : ∀ edge, edge ∈ result.edges ↔ ∃ original ∈ view.edges, edge =
    { original with
      source := Collapse.moved homes original.source
      target := Collapse.moved homes original.target }
  once : (result.edges.filter result.touchesGroup).Nodup
  closed : ∀ edge ∈ result.edges,
    edge.source ∈ result.nodes.map SymbolNode.id ∧ edge.target ∈ result.nodes.map SymbolNode.id

namespace Collapse

variable {view : GraphView} {homes : TextMap String}

/-- The image of every node is a node: the node itself, or its group. -/
theorem moved_mem_nodes (nodes : TextMap SymbolNode) {id : String}
    (member : id ∈ view.nodes.map SymbolNode.id) :
    moved homes id ∈ ((view.nodes.filter fun node => homes[node.id]?.isNone) ++
      (groups nodes homes).map groupNode).map SymbolNode.id := by
  rw [List.map_append, List.mem_append]
  cases found : homes[id]? with
  | none =>
      obtain ⟨node, inside, rfl⟩ := List.mem_map.mp member
      rw [moved_of_none found]
      exact .inl (List.mem_map_of_mem (List.mem_filter.mpr ⟨inside, by simp [found]⟩))
  | some path =>
      obtain ⟨group, inside, same⟩ :=
        List.mem_map.mp ((@mem_groups_iff nodes homes path).mpr ⟨id, found⟩)
      refine .inr (List.mem_map.mpr ⟨groupNode group, List.mem_map_of_mem inside, ?_⟩)
      simp only [groupNode, moved, found, groups_id inside, same]

/-- No group has the id of a plain node. -/
theorem touchesGroup_of_plain {result : CollapsedGraph} {edge : GraphEdge}
    (ids : ∀ group ∈ result.groups, group.id = groupId group.filePath)
    (source : Text.startsWith edge.source "external-group:" = false)
    (target : Text.startsWith edge.target "external-group:" = false) :
    result.touchesGroup edge = false := by
  rw [CollapsedGraph.touchesGroup, List.any_eq_false]
  intro group member touch
  have form : Text.startsWith group.id "external-group:" = true := by
    rw [ids group member]
    exact startsWith_groupId group.filePath
  rcases of_decide_eq_true touch with same | same
  · rw [same, source] at form
    cases form
  · rw [same, target] at form
    cases form

theorem touchesGroup_movedEdge {nodes : TextMap SymbolNode} {result : CollapsedGraph}
    {edge : GraphEdge} (made : result.groups = groups nodes homes)
    (shifted : stays homes edge = false) :
    result.touchesGroup (movedEdge homes edge) = true := by
  have reaches {id path : String} (found : homes[id]? = some path) :
      ∃ group ∈ result.groups, group.id = moved homes id := by
    obtain ⟨group, inside, same⟩ :=
      List.mem_map.mp ((@mem_groups_iff nodes homes path).mpr ⟨id, found⟩)
    refine ⟨group, made ▸ inside, ?_⟩
    simp only [moved, found, groups_id inside, same]
  rw [CollapsedGraph.touchesGroup, List.any_eq_true]
  cases source : homes[edge.source]? with
  | some path =>
      obtain ⟨group, inside, same⟩ := reaches source
      exact ⟨group, inside, decide_eq_true (.inl same)⟩
  | none =>
      cases target : homes[edge.target]? with
      | some path =>
          obtain ⟨group, inside, same⟩ := reaches target
          exact ⟨group, inside, decide_eq_true (.inr same)⟩
      | none => simp [stays, source, target] at shifted

end Collapse

/-- Folding the external nodes of a graph whose ids are distinct and whose edges do not dangle is
the quotient that sends each external node with a single owning file to that file's group. -/
theorem collapseExternals_quotient (view : GraphView)
    (distinct : (view.nodes.map SymbolNode.id).Nodup)
    (plain : ∀ node ∈ view.nodes, Text.startsWith node.id "external-group:" = false)
    (ends : ∀ edge ∈ view.edges,
      edge.source ∈ view.nodes.map SymbolNode.id ∧ edge.target ∈ view.nodes.map SymbolNode.id) :
    ∃ homes, QuotientBy view homes (collapseExternals view) := by
  have form {id : String} (member : id ∈ view.nodes.map SymbolNode.id) :
      Text.startsWith id "external-group:" = false := by
    obtain ⟨node, inside, rfl⟩ := List.mem_map.mp member
    exact plain node inside
  have owners {id path : String} := @Collapse.homes_eq_some_iff_ownedBy view distinct id path
  have ids : ∀ group ∈ (collapseExternals view).groups,
      group.id = Collapse.groupId group.filePath :=
    fun group member => Collapse.groups_id member
  have still (edge : GraphEdge) (inside : edge ∈ view.edges)
      (_ : Collapse.stays (Collapse.homes (Collapse.byId view.nodes) view.edges) edge = true) :
      (collapseExternals view).touchesGroup edge = false :=
    Collapse.touchesGroup_of_plain ids (form (ends edge inside).1) (form (ends edge inside).2)
  have shifts (edge : GraphEdge) (_ : edge ∈ view.edges)
      (shifted : Collapse.stays (Collapse.homes (Collapse.byId view.nodes) view.edges) edge =
        false) :
      (collapseExternals view).touchesGroup
        (Collapse.movedEdge (Collapse.homes (Collapse.byId view.nodes) view.edges) edge) = true :=
    Collapse.touchesGroup_movedEdge rfl shifted
  refine ⟨Collapse.homes (Collapse.byId view.nodes) view.edges, fun id path => owners, rfl, ?_, ids,
    ⟨Collapse.groups_nodup _ _, fun path => Collapse.mem_groups_iff⟩,
    Collapse.filter_untouched_moveEdges still shifts [], fun edge => ⟨fun member => ?_, ?_⟩,
    (Collapse.nodup_touched_moveEdges still shifts []).1, fun edge member => ?_⟩
  · intro node member internal
    refine List.mem_append_left _ (List.mem_filter.mpr ⟨member, ?_⟩)
    rw [Option.isNone_iff_eq_none, Option.eq_none_iff_forall_ne_some]
    intro path found
    obtain ⟨other, inside, same, external⟩ := (owners.mp found).external
    have first := (Collapse.byId_eq_some_iff distinct).mpr ⟨inside, same⟩
    have second := (Collapse.byId_eq_some_iff distinct).mpr ⟨member, rfl⟩
    rw [first] at second
    cases second
    exact internal external
  · obtain ⟨original, inside, same⟩ := Collapse.exists_of_mem_moveEdges member
    exact ⟨original, inside, same.symm⟩
  · rintro ⟨original, inside, rfl⟩
    exact (Collapse.movedEdge_mem_moveEdges inside).resolve_right (by simp)
  · obtain ⟨original, inside, rfl⟩ := Collapse.exists_of_mem_moveEdges member
    exact ⟨Collapse.moved_mem_nodes _ (ends original inside).1,
      Collapse.moved_mem_nodes _ (ends original inside).2⟩

/-- Two files that share one imported name, of which the first also imports another, twice. -/
def sharedImports : GraphView where
  nodes :=
    [⟨"file:a.py", "a.py", .file, "", none, none, some (.ofFile "a.py"), some "a"⟩,
     ⟨"file:b.py", "b.py", .file, "", none, none, some (.ofFile "b.py"), some "b"⟩,
     ⟨"external:os", "os", .external, "", none, none, none, none⟩,
     ⟨"external:re", "re", .external, "", none, none, none, none⟩]
  edges :=
    [⟨"file:a.py", "external:os", .imports, .low⟩, ⟨"file:a.py", "external:re", .imports, .low⟩,
     ⟨"file:b.py", "external:re", .imports, .low⟩, ⟨"file:a.py", "external:os", .imports, .low⟩]

theorem collapseExternals_quotient_sharedImports :
    (sharedImports.nodes.map SymbolNode.id).Nodup ∧
      (∀ node ∈ sharedImports.nodes, Text.startsWith node.id "external-group:" = false) ∧
      (∀ edge ∈ sharedImports.edges, edge.source ∈ sharedImports.nodes.map SymbolNode.id ∧
        edge.target ∈ sharedImports.nodes.map SymbolNode.id) ∧
      ∃ homes, QuotientBy sharedImports homes (collapseExternals sharedImports) ∧
        homes["external:os"]? = some "a.py" ∧ homes["external:re"]? = none := by
  refine ⟨by decide, by decide, by decide, ?_⟩
  obtain ⟨homes, quotient⟩ :=
    collapseExternals_quotient sharedImports (by decide) (by decide) (by decide)
  refine ⟨homes, quotient, (quotient.owners _ _).mpr ⟨by decide, by decide, by decide, by decide⟩,
    ?_⟩
  rw [Option.eq_none_iff_forall_ne_some]
  intro path found
  have owned := (quotient.owners _ _).mp found
  have first : "a.py" = path ∧ ¬path = "" := by
    simpa [sharedImports, SymbolNode.filePath?, SourceLocation.ofFile] using
      owned.incoming ⟨"file:a.py", "external:re", .imports, .low⟩ (by decide) rfl
  have second : "b.py" = path ∧ ¬path = "" := by
    simpa [sharedImports, SymbolNode.filePath?, SourceLocation.ofFile] using
      owned.incoming ⟨"file:b.py", "external:re", .imports, .low⟩ (by decide) rfl
  exact absurd (first.1.trans second.1.symm) (by decide)

end SourceAtlas
