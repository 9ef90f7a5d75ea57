/- Threads are greedy walks: every step goes to the best target not visited before, and a thread
ends early only where nothing new is called. -/
import SourceAtlas.Proofs.CallGraph
import SourceAtlas.Story.Thread

namespace SourceAtlas.Thread

open CallGraph (rankedTargets StrongestCall InRepository)

/-- A thread from an entry. Every step takes the best target left, but for the first of a branch. -/
structure GreedyWalk (index : RepoIndex) (config : StoryConfig) (entry : String) (isBranch : Bool)
    (thread : List Scene) : Prop where
  starts : ∃ node later, index.nodes[entry]? = some node ∧
    thread = .ofNode node .entry none :: later ∧ ∀ scene ∈ later, scene.role = .step
  distinct : (thread.map Scene.id).Nodup
  bounded : thread.length ≤ max 1 (min config.maxScenes (config.maxDepth + 1))
  joined : ∀ (i : Nat) (before scene : Scene),
    thread[i]? = some before → thread[i + 1]? = some scene →
    ∃ node confidence, index.nodes[scene.id]? = some node ∧ node.kind ≠ .external ∧
      scene = .ofNode node .step (some confidence) ∧
      StrongestCall index before.id scene.id confidence
  best : ∀ (i : Nat) (before scene : Scene),
    thread[i]? = some before → thread[i + 1]? = some scene →
    (isBranch = true → 0 < i) →
    ∃ confidence, scene.confidence = some confidence ∧
      ((rankedTargets index before.id).find? fun target =>
        target.1 ∉ (thread.take (i + 1)).map Scene.id) =
        some (scene.id, confidence)
  exhausted : thread.length < max 1 (min config.maxScenes (config.maxDepth + 1)) →
    ∀ last, thread.getLast? = some last → ∀ target ∈ rankedTargets index last.id,
      target.1 ∈ thread.map Scene.id

/-- A first step may be forced only to a target that is new. -/
def Allowed (index : RepoIndex) (visited : List String) (current : String)
    (forced : Option (String × Confidence)) : Prop :=
  ∀ target, forced = some target → target ∈ rankedTargets index current ∧ target.1 ∉ visited

theorem allowed_none (index : RepoIndex) (visited : List String) (current : String) :
    Allowed index visited current none := by
  intro target same
  cases same

section Steps

variable {index : RepoIndex} {visited : List String} {current : String}
  {forced : Option (String × Confidence)}

/-- The next step leads to a new target, forced or not. -/
theorem Allowed.next {target : String × Confidence} (allowed : Allowed index visited current forced)
    (next : forced.or ((rankedTargets index current).find? fun (id, _) => id ∉ visited) =
      some target) :
    target ∈ rankedTargets index current ∧ target.1 ∉ visited := by
  rcases Option.or_eq_some_iff.mp next with first | ⟨-, found⟩
  · exact allowed target first
  · exact ⟨List.mem_of_find?_eq_some found, by simpa using List.find?_some found⟩

theorem role_of_mem_steps {maxScenes depth scenes : Nat} {scene : Scene}
    (member : scene ∈ steps index maxScenes depth scenes visited current forced) :
    scene.role = .step := by
  fun_induction steps index maxScenes depth scenes visited current forced with
  | case1 => cases member
  | case2 => cases member
  | case3 => cases member
  | case4 => cases member
  | case5 depth scenes visited current forced room next id confidence found node known ih =>
      rcases List.mem_cons.mp member with rfl | later
      · rfl
      · exact ih later

theorem length_steps_le (index : RepoIndex) (maxScenes depth scenes : Nat) (visited : List String)
    (current : String) (forced : Option (String × Confidence)) :
    (steps index maxScenes depth scenes visited current forced).length ≤
      min depth (maxScenes - scenes) := by
  fun_induction steps index maxScenes depth scenes visited current forced with
  | case1 => simp
  | case2 => simp
  | case3 => simp
  | case4 => simp
  | case5 depth scenes visited current forced room next id confidence found node known ih =>
      rw [List.length_cons]
      omega

variable (keyed : ∀ (id : String) (node : SymbolNode), index.nodes[id]? = some node → node.id = id)
include keyed

theorem steps_fresh {maxScenes depth scenes : Nat}
    (allowed : Allowed index visited current forced) :
    ((steps index maxScenes depth scenes visited current forced).map Scene.id).Nodup ∧
      ∀ id ∈ (steps index maxScenes depth scenes visited current forced).map Scene.id,
        id ∉ visited := by
  fun_induction steps index maxScenes depth scenes visited current forced with
  | case1 => simp
  | case2 => simp
  | case3 => simp
  | case4 => simp
  | case5 depth scenes visited current forced room next id confidence found node known ih =>
      have new := (allowed.next found).2
      have same : (Scene.ofNode node .step (some confidence)).id = id := keyed id node known
      obtain ⟨distinct, others⟩ := ih (allowed_none index (id :: visited) id)
      rw [List.map_cons, same]
      refine ⟨List.nodup_cons.mpr ⟨fun again => others id again (by simp), distinct⟩, ?_⟩
      intro other member
      rcases List.mem_cons.mp member with rfl | later
      · exact new
      · exact fun old => others other later (by simp [old])

/-- Where a step comes from, and that it is the best one unless it was forced. -/
theorem steps_at {maxScenes depth scenes : Nat} (i : Nat) {scene : Scene}
    (allowed : Allowed index visited current forced)
    (taken : (steps index maxScenes depth scenes visited current forced)[i]? = some scene) :
    ∃ before node confidence,
      (current :: (steps index maxScenes depth scenes visited current forced).map Scene.id)[i]? =
        some before ∧
      index.nodes[scene.id]? = some node ∧ scene = .ofNode node .step (some confidence) ∧
      (scene.id, confidence) ∈ rankedTargets index before ∧
      ((forced.isSome = true → 0 < i) → ((rankedTargets index before).find? fun target => target.1 ∉
        (((steps index maxScenes depth scenes visited current forced).take i).map Scene.id).reverse
        ++ visited) =
          some (scene.id, confidence)) := by
  fun_induction steps index maxScenes depth scenes visited current forced generalizing i with
  | case1 => simp at taken
  | case2 => simp at taken
  | case3 => simp at taken
  | case4 => simp at taken
  | case5 depth scenes visited current forced room next id confidence found node known ih =>
      have same : (Scene.ofNode node .step (some confidence)).id = id := keyed id node known
      cases i with
      | zero =>
          cases taken
          rw [same]
          refine ⟨current, node, confidence, rfl, known, rfl, (allowed.next found).1,
            fun free => ?_⟩
          have unforced : forced = none := by
            cases forced with
            | none => rfl
            | some first => exact absurd (free rfl) (Nat.lt_irrefl 0)
          subst unforced
          exact found
      | succ i =>
          obtain ⟨before, target, strength, position, stored, made, ranked, best⟩ :=
            ih i (allowed_none index (id :: visited) id) taken
          refine ⟨before, target, strength, ?_, stored, made, ranked, fun _ => ?_⟩
          · rw [List.map_cons, same]
            exact position
          · rw [List.take_succ_cons, List.map_cons, same, List.reverse_cons, List.append_assoc]
            exact best (by simp)

/-- Steps end before their bounds only where every target was visited. -/
theorem steps_exhausted {maxScenes depth scenes : Nat}
    (allowed : Allowed index visited current forced)
    (short : (steps index maxScenes depth scenes visited current forced).length <
      min depth (maxScenes - scenes))
    {last : String}
    (final : (current :: (steps index maxScenes depth scenes visited current forced).map
      Scene.id).getLast? = some last)
    {target : String × Confidence} (ranked : target ∈ rankedTargets index last) :
    target.1 ∈ visited ∨
      target.1 ∈ (steps index maxScenes depth scenes visited current forced).map Scene.id := by
  fun_induction steps index maxScenes depth scenes visited current forced with
  | case1 => simp at short
  | case2 depth scenes visited current forced full =>
      simp only [List.length_nil] at short
      omega
  | case3 depth scenes visited current forced room next found =>
      cases final
      have unmatched := (Option.or_eq_none_iff.mp found).2
      have seen := List.find?_eq_none.mp unmatched target ranked
      exact .inl (by simpa using seen)
  | case4 depth scenes visited current forced room next id confidence found missing =>
      have internal := (CallGraph.mem_rankedTargets_iff.mp (allowed.next found).1).2.1
      obtain ⟨node, known, -⟩ := internal
      cases missing.symm.trans known
  | case5 depth scenes visited current forced room next id confidence found node known ih =>
      have same : (Scene.ofNode node .step (some confidence)).id = id := keyed id node known
      rw [List.length_cons] at short
      rw [List.map_cons, same] at final ⊢
      rcases ih (allowed_none index (id :: visited) id) (by omega) (by simpa using final) with old |
        new
      · rcases List.mem_cons.mp old with here | before
        · exact .inr (by simp [here])
        · exact .inl before
      · exact .inr (by simp [new])

variable (config : StoryConfig) {entry : String} {node : SymbolNode}
  (known : index.nodes[entry]? = some node)
include known

theorem walk_of_known (forced : Option (String × Confidence)) :
    walk index config entry forced =
      .ofNode node .entry none ::
        steps index config.maxScenes config.maxDepth 1 [entry] entry forced := by
  simp only [walk, known, keyed entry node known]

theorem map_id_walk (forced : Option (String × Confidence)) :
    (walk index config entry forced).map Scene.id =
      entry :: (steps index config.maxScenes config.maxDepth 1 [entry] entry forced).map
        Scene.id := by
  have first : (Scene.ofNode node .entry none).id = entry := keyed entry node known
  rw [walk_of_known keyed config known, List.map_cons, first]

/-- A step of a walk, seen from the scene before it. -/
theorem walk_at (allowed : Allowed index [entry] entry forced) {i : Nat} {before scene : Scene}
    (here : (walk index config entry forced)[i]? = some before)
    (next : (walk index config entry forced)[i + 1]? = some scene) :
    ∃ target confidence, index.nodes[scene.id]? = some target ∧
      scene = .ofNode target .step (some confidence) ∧
      (scene.id, confidence) ∈ rankedTargets index before.id ∧
      ((forced.isSome = true → 0 < i) →
        ((rankedTargets index before.id).find? fun target => target.1 ∉
        ((walk index config entry forced).take (i + 1)).map Scene.id) =
          some (scene.id, confidence)) := by
  have taken : (steps index config.maxScenes config.maxDepth 1 [entry] entry forced)[i]? =
      some scene := by
    rw [walk_of_known keyed config known] at next
    exact next
  obtain ⟨id, target, confidence, position, stored, made, ranked, best⟩ :=
    steps_at keyed i allowed taken
  have prior : id = before.id := by
    have listed := congrArg (Option.map Scene.id) here
    rw [← List.getElem?_map, map_id_walk keyed config known] at listed
    exact Option.some.inj (position.symm.trans listed)
  subst prior
  refine ⟨target, confidence, stored, made, ranked, fun free => ?_⟩
  rw [← best free, List.map_take, map_id_walk keyed config known, List.take_succ_cons,
    List.map_take]
  congr 1
  funext target
  simp [and_comm]

/-- A walk from a known entry is greedy but for a forced first step. -/
theorem walk_greedy (allowed : Allowed index [entry] entry forced) :
    GreedyWalk index config entry forced.isSome (walk index config entry forced) := by
  let later := steps index config.maxScenes config.maxDepth 1 [entry] entry forced
  have shape : walk index config entry forced = .ofNode node .entry none :: later :=
    walk_of_known keyed config known forced
  have ids : (walk index config entry forced).map Scene.id = entry :: later.map Scene.id :=
    map_id_walk keyed config known forced
  have limit : later.length ≤ min config.maxDepth (config.maxScenes - 1) :=
    length_steps_le index config.maxScenes config.maxDepth 1 [entry] entry forced
  have length : (walk index config entry forced).length = later.length + 1 := by
    rw [shape, List.length_cons]
  obtain ⟨distinct, fresh⟩ : (later.map Scene.id).Nodup ∧ ∀ id ∈ later.map Scene.id, id ∉ [entry] :=
    steps_fresh keyed allowed
  refine ⟨⟨node, later, known, shape, fun scene member => role_of_mem_steps member⟩, ?_, ?_,
    ?_, ?_, ?_⟩
  · rw [ids]
    exact List.nodup_cons.mpr ⟨fun again => fresh entry again (by simp), distinct⟩
  · omega
  · intro i before scene here next
    obtain ⟨target, confidence, stored, made, ranked, -⟩ :=
      walk_at keyed config known allowed here next
    obtain ⟨-, ⟨other, found, internal⟩, strongest⟩ := CallGraph.mem_rankedTargets_iff.mp ranked
    cases found.symm.trans stored
    exact ⟨target, confidence, stored, internal, made, strongest⟩
  · intro i before scene here next free
    obtain ⟨target, confidence, stored, made, ranked, best⟩ :=
      walk_at keyed config known allowed here next
    exact ⟨confidence, by rw [made]; rfl, best free⟩
  · intro short last final target ranked
    have close : later.length < min config.maxDepth (config.maxScenes - 1) := by omega
    have ending : (entry :: later.map Scene.id).getLast? = some last.id := by
      rw [← ids, List.getLast?_map, final]
      rfl
    rw [ids]
    rcases steps_exhausted keyed allowed close ending ranked with old | new
    · exact List.mem_cons.mpr (.inl (List.mem_singleton.mp old))
    · exact List.mem_cons_of_mem _ new

end Steps

theorem walk_of_missing {index : RepoIndex} (config : StoryConfig) {entry : String}
    (missing : index.nodes[entry]? = none) (forced : Option (String × Confidence)) :
    walk index config entry forced = [] := by
  simp only [walk, missing]

theorem alternatives_allowed {index : RepoIndex} {config : StoryConfig} {entry : String}
    {first : String × Confidence} (member : first ∈ alternatives index config entry) :
    Allowed index [entry] entry (some first) := by
  intro target same
  cases same
  have listed := List.mem_of_mem_drop (List.mem_of_mem_take member)
  obtain ⟨ranked, other⟩ := List.mem_filter.mp listed
  exact ⟨ranked, by simpa using other⟩

/-- An entry has threads exactly when it is known. Every thread is a greedy walk from it, and only
the threads after the main one have a first step of their own. -/
theorem all_greedy (index : RepoIndex)
    (keyed : ∀ (id : String) (node : SymbolNode), index.nodes[id]? = some node → node.id = id)
    (config : StoryConfig) (entry : String) :
    (all index config entry = [] ↔ index.nodes[entry]? = none) ∧
      ∀ (place : Nat) (thread : List Scene), (all index config entry)[place]? = some thread →
        GreedyWalk index config entry (decide (0 < place)) thread := by
  cases known : index.nodes[entry]? with
  | none =>
      have empty : all index config entry = [] := by
        simp only [all, walk_of_missing config known none, List.isEmpty_nil, if_true]
      refine ⟨by simp [empty], fun place thread found => ?_⟩
      rw [empty] at found
      simp at found
  | some node =>
      have main : walk index config entry none ≠ [] := by
        rw [walk_of_known keyed config known]
        exact List.cons_ne_nil _ _
      have shape : all index config entry = walk index config entry none ::
          ((alternatives index config entry).map fun first =>
            walk index config entry (some first)).filter
            fun branch => 1 < branch.length := by
        simp only [all, List.isEmpty_iff, main, if_false]
      refine ⟨by simp [shape], fun place thread found => ?_⟩
      rw [shape] at found
      cases place with
      | zero =>
          cases found
          exact walk_greedy keyed config known (allowed_none index [entry] entry)
      | succ place =>
          have listed := List.mem_of_getElem? (List.getElem?_cons_succ.symm.trans found)
          obtain ⟨first, member, rfl⟩ := List.mem_map.mp (List.mem_filter.mp listed).1
          exact walk_greedy keyed config known (alternatives_allowed member)

/-- Two functions that call each other and themselves, the first call made twice, besides calls that
leave the repository or dangle. -/
def mutualCalls : RepoIndex :=
  .ofGraph
    (((∅ : TextMap SymbolNode).insert "a" ⟨"a", "a", .function, "", none, none, none, none⟩).insert
      "b"
      ⟨"b", "b", .method, "", none, none, none, none⟩)
    [⟨"a", "b", .calls, .medium⟩, ⟨"a", "a", .calls, .high⟩, ⟨"b", "a", .calls, .high⟩,
     ⟨"a", "b", .calls, .high⟩, ⟨"b", "external:log", .calls, .low⟩, ⟨"c", "b", .calls, .medium⟩]

theorem all_greedy_mutualCalls :
    (∀ (id : String) (node : SymbolNode), mutualCalls.nodes[id]? = some node → node.id = id) ∧
      ∃ thread, (all mutualCalls {} "a")[0]? = some thread ∧
        GreedyWalk mutualCalls {} "a" false thread ∧ 1 < thread.length := by
  have keyed (id : String) (node : SymbolNode) (found : mutualCalls.nodes[id]? = some node) :
      node.id = id := by
    simp only [mutualCalls, RepoIndex.ofGraph, TextMap.get?_put,
      Std.ExtTreeMap.getElem?_empty] at found
    split at found
    · next same =>
        cases found
        exact same
    · split at found
      · next same =>
          cases found
          exact same
      · cases found
  refine ⟨keyed, ?_⟩
  obtain ⟨empty, greedy⟩ := all_greedy mutualCalls keyed {} "a"
  cases shape : all mutualCalls {} "a" with
  | nil => exact absurd (empty.mp shape) (by decide +kernel)
  | cons thread branches =>
      have walk := greedy 0 thread (by rw [shape]; rfl)
      refine ⟨thread, rfl, walk, ?_⟩
      obtain ⟨node, later, known, rfl, -⟩ := walk.starts
      cases later with
      | cons scene rest => simp
      | nil =>
          -- A thread of the entry alone would have to know every target of the entry.
          have first : node.id = "a" := keyed "a" node known
          have internal : InRepository mutualCalls "b" :=
            ⟨⟨"b", "b", .method, "", none, none, none, none⟩, by decide +kernel, by decide⟩
          have call : StrongestCall mutualCalls "a" "b" .high :=
            ⟨by decide, fun other _ => by cases other <;> decide⟩
          have called : ("b", Confidence.high) ∈ rankedTargets mutualCalls "a" :=
            CallGraph.mem_rankedTargets_iff.mpr ⟨⟨node, known⟩, internal, call⟩
          rw [← first] at called
          have visited := walk.exhausted (by simp) (.ofNode node .entry none) rfl
            ("b", .high) called
          simp [Scene.ofNode, first] at visited

end SourceAtlas.Thread
