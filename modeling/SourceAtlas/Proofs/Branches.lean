/- How the threads of an entry fan out. The main thread and the branches take the targets of the
entry one by one in the order of their ranks, so that no two threads begin with the same step. -/
import SourceAtlas.Proofs.Ranking

namespace SourceAtlas.Thread

open CallGraph (rankedTargets RankedFrom InRepository)

/-- What an entry calls in the repository besides itself. -/
def callees (index : RepoIndex) (entry : String) : Finset String :=
  ((index.edges.filter fun edge => edge.kind = .calls ∧ edge.source = entry ∧ edge.target ≠ entry ∧
    ∃ node ∈ index.nodes[edge.target]?, node.kind ≠ .external).map GraphEdge.target).toFinset

/-- The targets of a ranking that lead away from the entry. -/
def away (entry : String) (ranking : List (String × Confidence)) : List (String × Confidence) :=
  ranking.filter fun target => target.1 ≠ entry

/-- The scene of a step to a target. -/
def stepTo (index : RepoIndex) (target : String × Confidence) : Option Scene :=
  index.nodes[target.1]?.map fun node => .ofNode node .step (some target.2)

/-- Threads that begin with the targets of a ranking, one thread for each target as far as there may
be branches. -/
structure FansOut (index : RepoIndex) (config : StoryConfig) (entry : String)
    (ranking : List (String × Confidence)) (threads : List (List Scene)) : Prop where
  choices : (away entry ranking).length = (callees index entry).card
  count : threads.length = 1 + min config.maxBranches ((callees index entry).card - 1)
  second : ∀ (place : Nat) (thread : List Scene), threads[place]? = some thread →
    thread[1]? = (away entry ranking)[place]?.bind (stepTo index)
  distinct : (threads.map fun thread => thread[1]?.map Scene.id).Nodup

section Choices

variable {index : RepoIndex} {entry : String} {ranking : List (String × Confidence)}

theorem mem_callees_iff {target : String} : target ∈ callees index entry ↔
    target ≠ entry ∧ InRepository index target ∧
      ∃ confidence, (⟨entry, target, .calls, confidence⟩ : GraphEdge) ∈ index.edges := by
  simp only [callees, List.mem_toFinset, List.mem_map, List.mem_filter, decide_eq_true_eq]
  constructor
  · rintro ⟨⟨source, stop, kind, confidence⟩, ⟨member, rfl, rfl, other, node, found, internal⟩, rfl⟩
    exact ⟨other, ⟨node, found, internal⟩, confidence, member⟩
  · rintro ⟨other, ⟨node, found, internal⟩, confidence, member⟩
    exact ⟨_, ⟨member, rfl, rfl, other, node, found, internal⟩, rfl⟩

theorem nodup_away (ranked : RankedFrom index entry ranking) :
    ((away entry ranking).map Prod.fst).Nodup :=
  ranked.once.sublist (List.filter_sublist.map Prod.fst)

@[simp] theorem mem_away_iff {target : String × Confidence} :
    target ∈ away entry ranking ↔ target ∈ ranking ∧ target.1 ≠ entry := by
  simp [away]

theorem length_away {node : SymbolNode} (known : index.nodes[entry]? = some node)
    (ranked : RankedFrom index entry ranking) :
    (away entry ranking).length = (callees index entry).card := by
  have same : ((away entry ranking).map Prod.fst).toFinset = callees index entry := by
    ext target
    simp only [List.mem_toFinset, List.mem_map, mem_away_iff, mem_callees_iff]
    constructor
    · rintro ⟨⟨target, confidence⟩, ⟨listed, other⟩, rfl⟩
      obtain ⟨-, internal, strongest⟩ := (ranked.targets target confidence).mp listed
      exact ⟨other, internal, confidence, strongest.call⟩
    · rintro ⟨other, internal, confidence, call⟩
      obtain ⟨strongest, best⟩ := CallGraph.exists_strongestCall call
      have listed := (ranked.targets target strongest).mpr ⟨⟨node, known⟩, internal, best⟩
      exact ⟨(target, strongest), ⟨listed, other⟩, rfl⟩
  rw [← same, List.toFinset_card_of_nodup (nodup_away ranked), List.length_map]

end Choices

section Room

variable {index : RepoIndex}
  (keyed : ∀ (id : String) (node : SymbolNode), index.nodes[id]? = some node → node.id = id)
  {config : StoryConfig} {entry : String} {node : SymbolNode}
  (known : index.nodes[entry]? = some node)
include keyed known

theorem walk_of_no_room (full : ¬(1 ≤ config.maxDepth ∧ 2 ≤ config.maxScenes))
    (forced : Option (String × Confidence)) :
    walk index config entry forced = [.ofNode node .entry none] := by
  have bound := length_steps_le index config.maxScenes config.maxDepth 1 [entry] entry forced
  have stopped : steps index config.maxScenes config.maxDepth 1 [entry] entry forced = [] :=
    List.eq_nil_of_length_eq_zero (by omega)
  rw [walk_of_known keyed config known, stopped]

/-- The second scene of a walk with room for one: the best target away from the entry, unless a step
is forced. -/
theorem second_walk (room : 1 ≤ config.maxDepth ∧ 2 ≤ config.maxScenes)
    (forced : Option (String × Confidence)) :
    (walk index config entry forced)[1]? =
      (forced.or (away entry (rankedTargets index entry)).head?).bind (stepTo index) := by
  obtain ⟨depth, deep⟩ : ∃ depth, config.maxDepth = depth + 1 := ⟨config.maxDepth - 1, by omega⟩
  have wide : ¬config.maxScenes ≤ 1 := by omega
  have best : (away entry (rankedTargets index entry)).head? =
      (rankedTargets index entry).find? fun target => target.1 ∉ [entry] := by
    simp [away, List.head?_filter]
  rw [walk_of_known keyed config known, List.getElem?_cons_succ, deep, best, steps, if_neg wide]
  simp only
  split
  · next absent =>
      rw [absent]
      rfl
  · next target confidence found =>
      rw [found, Option.bind_some, stepTo]
      split
      · next missing =>
          rw [missing]
          rfl
      · next stored =>
          rw [stored]
          rfl

theorem all_of_known : all index config entry = walk index config entry none ::
    ((alternatives index config entry).map fun first => walk index config entry (some first)).filter
      fun branch => 1 < branch.length := by
  have main : walk index config entry none ≠ [] := by
    rw [walk_of_known keyed config known]
    exact List.cons_ne_nil _ _
  simp only [all, List.isEmpty_iff, main, if_false]

theorem all_of_no_room (full : ¬(1 ≤ config.maxDepth ∧ 2 ≤ config.maxScenes)) :
    all index config entry = [[.ofNode node .entry none]] := by
  rw [all_of_known keyed known, walk_of_no_room keyed known full]
  have short : ((alternatives index config entry).map fun first =>
      walk index config entry (some first)).filter
      (fun branch => 1 < branch.length) = [] := by
    rw [List.filter_eq_nil_iff, List.forall_mem_map]
    intro first _
    simp [walk_of_no_room keyed known full]
  rw [short]

omit known in
theorem exists_stepTo {target : String × Confidence} (listed : target ∈ rankedTargets index entry) :
    ∃ scene, stepTo index target = some scene ∧ scene.id = target.1 := by
  obtain ⟨-, ⟨other, found, -⟩, -⟩ := CallGraph.mem_rankedTargets_iff.mp listed
  refine ⟨.ofNode other .step (some target.2), ?_, keyed target.1 other found⟩
  rw [stepTo, found]
  rfl

-- A forced step always leads somewhere, so no branch is dropped.
theorem all_of_room (room : 1 ≤ config.maxDepth ∧ 2 ≤ config.maxScenes) :
    all index config entry = walk index config entry none ::
      (((away entry (rankedTargets index entry)).drop 1).take config.maxBranches).map fun first =>
        walk index config entry (some first) := by
  have alternatives_eq : alternatives index config entry =
      ((away entry (rankedTargets index entry)).drop 1).take config.maxBranches := rfl
  rw [all_of_known keyed known, alternatives_eq]
  congr 1
  rw [List.filter_eq_self, List.forall_mem_map]
  intro first member
  have listed := (mem_away_iff.mp (List.mem_of_mem_drop (List.mem_of_mem_take member))).1
  obtain ⟨scene, made, -⟩ := exists_stepTo keyed listed
  have second := second_walk keyed known room (some first)
  rw [Option.some_or, Option.bind_some, made] at second
  simpa using (List.getElem?_eq_some_iff.mp second).1

/-- The first steps of the threads are those to the best targets, in their order. -/
theorem seconds_of_room (room : 1 ≤ config.maxDepth ∧ 2 ≤ config.maxScenes)
    {best : String × Confidence} {rest : List (String × Confidence)}
    (choices : away entry (rankedTargets index entry) = best :: rest) :
    ((all index config entry).map fun thread => thread[1]?) =
      ((away entry (rankedTargets index entry)).take (1 + config.maxBranches)).map
        (stepTo index) := by
  rw [all_of_room keyed known room, List.map_cons, List.map_map, second_walk keyed known room,
    choices, Nat.add_comm, List.take_succ_cons, List.map_cons]
  congr 1
  refine List.map_congr_left fun first _ => ?_
  rw [Function.comp_apply, second_walk keyed known room, Option.some_or, Option.bind_some]

theorem seconds_ids (room : 1 ≤ config.maxDepth ∧ 2 ≤ config.maxScenes) {best : String × Confidence}
    {rest : List (String × Confidence)}
    (choices : away entry (rankedTargets index entry) = best :: rest) :
    ((all index config entry).map fun thread => thread[1]?.map Scene.id) =
      (((away entry (rankedTargets index entry)).take (1 + config.maxBranches)).map Prod.fst).map
        some := by
  have seconds := congrArg (List.map (Option.map Scene.id))
    (seconds_of_room keyed known room choices)
  rw [List.map_map, List.map_map] at seconds
  refine seconds.trans ?_
  rw [List.map_map]
  refine List.map_congr_left fun target member => ?_
  obtain ⟨scene, made, same⟩ := exists_stepTo keyed
    (mem_away_iff.mp (List.mem_of_mem_take member)).1
  simp only [Function.comp_apply, made, Option.map_some, same]

theorem all_fansOut (room : 1 ≤ config.maxDepth ∧ 2 ≤ config.maxScenes) :
    FansOut index config entry (rankedTargets index entry) (all index config entry) := by
  have ranked := CallGraph.rankedTargets_rankedFrom index entry
  have length := length_away known ranked
  cases choices : away entry (rankedTargets index entry) with
  | nil =>
      have alone : all index config entry = [walk index config entry none] := by
        rw [all_of_room keyed known room, choices]
        simp
      rw [choices, List.length_nil] at length
      rw [alone]
      refine ⟨by rw [choices, ← length, List.length_nil], by rw [← length]; simp, ?_, by simp⟩
      intro place thread found
      obtain ⟨rfl, rfl⟩ : place = 0 ∧ walk index config entry none = thread := by
        simpa [List.getElem?_singleton] using found
      rw [second_walk keyed known room, choices]
      rfl
  | cons best rest =>
      have seconds := seconds_of_room keyed known room choices
      refine ⟨length, ?_, ?_, ?_⟩
      · have counted := congrArg List.length seconds
        rw [List.length_map, List.length_map, List.length_take, length] at counted
        rw [choices, List.length_cons] at length
        omega
      · intro place thread found
        have here := congrArg (·[place]?) seconds
        simp only [List.getElem?_map, found, Option.map_some] at here
        obtain ⟨target, taken, made⟩ := Option.map_eq_some_iff.mp here.symm
        rw [List.getElem?_take] at taken
        split at taken
        · rw [taken, Option.bind_some, made]
        · cases taken
      · rw [seconds_ids keyed known room choices]
        have distinct := (nodup_away ranked).sublist
          ((List.take_sublist (1 + config.maxBranches) _).map Prod.fst)
        exact distinct.map (Option.some_injective String)

end Room

/-- The main thread and the branches share out the targets of the entry in the order of their ranks.
Without room for a second scene only the entry is left. -/
theorem all_branches (index : RepoIndex)
    (keyed : ∀ (id : String) (node : SymbolNode), index.nodes[id]? = some node → node.id = id)
    (config : StoryConfig) (entry : String) (node : SymbolNode)
    (known : index.nodes[entry]? = some node) :
    (1 ≤ config.maxDepth ∧ 2 ≤ config.maxScenes →
      ∃ ranking, RankedFrom index entry ranking ∧
        FansOut index config entry ranking (all index config entry)) ∧
      (¬(1 ≤ config.maxDepth ∧ 2 ≤ config.maxScenes) →
        all index config entry = [[.ofNode node .entry none]]) := by
  constructor
  · intro room
    exact ⟨rankedTargets index entry, CallGraph.rankedTargets_rankedFrom index entry,
      all_fansOut keyed known room⟩
  · intro full
    exact all_of_no_room keyed known full

theorem all_branches_tiedCalls :
    (∀ (id : String) (node : SymbolNode),
      CallGraph.tiedCalls.nodes[id]? = some node → node.id = id) ∧
      (callees CallGraph.tiedCalls "m").card = 3 ∧ (all CallGraph.tiedCalls {} "m").length = 3 ∧
      ((all CallGraph.tiedCalls {} "m").map fun thread => thread[1]?.map Scene.id) =
        [some "z", some "y", some "x"] ∧
      (all CallGraph.tiedCalls ⟨5, 1, 2⟩ "m").length = 1 := by
  have keyed (id : String) (node : SymbolNode)
      (found : CallGraph.tiedCalls.nodes[id]? = some node) :
      node.id = id := by
    simp only [CallGraph.tiedCalls, RepoIndex.ofGraph, TextMap.get?_put,
      Std.ExtTreeMap.getElem?_empty] at found
    grind
  have known : CallGraph.tiedCalls.nodes["m"]? =
      some ⟨"m", "main", .function, "", none, none, some ⟨"a.py", 1, 2, 1, 1⟩, none⟩ := by
    decide +kernel
  have card : (callees CallGraph.tiedCalls "m").card = 3 := by decide +kernel
  obtain ⟨ranking, ranked, fans⟩ :=
    (all_branches CallGraph.tiedCalls keyed {} "m" _ known).1 (by decide)
  cases ranked.unique CallGraph.tiedCalls_rankedFrom
  have length : (all CallGraph.tiedCalls {} "m").length = 3 := by
    rw [fans.count, card]
    rfl
  refine ⟨keyed, card, length, ?_, ?_⟩
  · obtain ⟨main, first, second, threads⟩ := List.length_eq_three.mp length
    rw [threads] at fans ⊢
    simp only [List.map_cons, List.map_nil, fans.second 0 main rfl, fans.second 1 first rfl,
      fans.second 2 second rfl]
    decide +kernel
  · rw [(all_branches CallGraph.tiedCalls keyed ⟨5, 1, 2⟩ "m" _ known).2 (by decide)]
    rfl

end SourceAtlas.Thread
