/- The ranking of call targets is a strict total order on them. It leaves one way to list the
targets of a node, so that neither the list nor a thread depends on the order in which the calls
were found. -/
import SourceAtlas.Proofs.Doubles
import SourceAtlas.Proofs.TextMap
import SourceAtlas.Proofs.Thread

namespace SourceAtlas.CallGraph

open Double (lt_iff_orderKey_lt orderKey_inj)

/-- One target of a caller comes before another: its rank is higher, or the ranks are equal and its
name, path and id come first. -/
def Outranks (index : RepoIndex) (caller : SymbolNode) (first second : String × Confidence) :
    Prop :=
  ∃ a b, index.nodes[first.1]? = some a ∧ index.nodes[second.1]? = some b ∧
    (rank index caller b second.2 < rank index caller a first.2 ∨
      rank index caller a first.2 = rank index caller b second.2 ∧
        (a.name < b.name ∨ a.name = b.name ∧
          (a.filePath?.getD "" < b.filePath?.getD "" ∨ a.filePath?.getD "" = b.filePath?.getD "" ∧
            first.1 < second.1)))

/-- A list of what a node calls in the repository, each target once with its strongest call, best
first. -/
structure RankedFrom (index : RepoIndex) (source : String) (listed : List (String × Confidence)) :
    Prop where
  targets : ∀ target confidence, (target, confidence) ∈ listed ↔
    (∃ caller, index.nodes[source]? = some caller) ∧ InRepository index target ∧
      StrongestCall index source target confidence
  once : (listed.map Prod.fst).Nodup
  ordered : ∀ caller, index.nodes[source]? = some caller → listed.Pairwise (Outranks index caller)

/-- What decides the place of a target among those of a caller. -/
def candidate (index : RepoIndex) (caller node : SymbolNode) (target : String × Confidence) :
    Candidate where
  id := target.1
  confidence := target.2
  rank := rank index caller node target.2
  name := node.name
  path := node.filePath?.getD ""

instance : Std.TransCmp Candidate.order := by
  unfold Candidate.order
  infer_instance

theorem Candidate.order_swap (a b : Candidate) : b.order a = (a.order b).swap :=
  Std.OrientedCmp.eq_swap

section Order

variable {index : RepoIndex} {caller : SymbolNode} {first second : String × Confidence}

theorem outranks_iff : Outranks index caller first second ↔
    ∃ a b, index.nodes[first.1]? = some a ∧ index.nodes[second.1]? = some b ∧
      (candidate index caller a first).order (candidate index caller b second) = .lt := by
  have text (s t : String) : compare s t = .lt ↔ s < t := compareOfLessAndEq_eq_lt
  have higher {a b : SymbolNode} (strong weak : Confidence) :
      compare (-orderKey (rank index caller a strong)) (-orderKey (rank index caller b weak)) =
        .lt ↔
        rank index caller b weak < rank index caller a strong := by
    rw [lt_iff_orderKey_lt (isNumber_rank ..) (isNumber_rank ..), Int.compare_eq_lt]
    omega
  have level (a b : Float) : compare (-orderKey a) (-orderKey b) = .eq ↔ a = b := by
    rw [Int.compare_eq_eq, Int.neg_inj]
    exact ⟨orderKey_inj, congrArg orderKey⟩
  simp only [Outranks, Candidate.order, candidate, compareLex, compareOn, Ordering.then_eq_lt,
    higher, level, text, Std.compare_eq_iff_eq]

theorem Outranks.asymm (before : Outranks index caller first second) :
    ¬Outranks index caller second first := by
  intro after
  obtain ⟨a, b, left, right, less⟩ := outranks_iff.mp before
  obtain ⟨b', a', right', left', more⟩ := outranks_iff.mp after
  cases left.symm.trans left'
  cases right.symm.trans right'
  rw [Candidate.order_swap, less] at more
  cases more

end Order

section Listing

variable {index : RepoIndex} {source : String} {caller : SymbolNode}

theorem mem_candidates (known : index.nodes[source]? = some caller) {entry : Candidate}
    (member : entry ∈ candidates index source) :
    ∃ node, index.nodes[entry.id]? = some node ∧
      entry = candidate index caller node (entry.id, entry.confidence) := by
  simp only [candidates, known, List.mem_mergeSort, List.mem_filterMap,
    Option.map_eq_some_iff] at member
  obtain ⟨⟨target, confidence⟩, -, node, found, rfl⟩ := member
  exact ⟨node, found, rfl⟩

theorem candidates_pairwise_isLE (index : RepoIndex) (source : String) :
    (candidates index source).Pairwise fun a b => (a.order b).isLE = true := by
  unfold candidates
  split
  · exact .nil
  · exact pairwise_mergeSort_isLE Candidate.order _

theorem nodup_map_id_candidates (index : RepoIndex) (source : String) :
    ((candidates index source).map Candidate.id).Nodup := by
  unfold candidates
  split
  · exact .nil
  · next caller known =>
      apply ((List.mergeSort_perm _ _).map Candidate.id).nodup_iff.mpr
      have keys := TextMap.nodup_keys_toList (targets index source)
      rw [List.Nodup, List.pairwise_map] at keys ⊢
      apply List.pairwise_filterMap.mpr
      apply keys.imp
      intro a b different first made second also
      obtain ⟨node, -, rfl⟩ := Option.map_eq_some_iff.mp made
      obtain ⟨other, -, rfl⟩ := Option.map_eq_some_iff.mp also
      exact different

/-- No two candidates are level, since their ids differ. -/
theorem candidates_pairwise_lt (index : RepoIndex) (source : String) :
    (candidates index source).Pairwise fun a b => a.order b = .lt := by
  have distinct := List.pairwise_map.mp (nodup_map_id_candidates index source)
  refine ((candidates_pairwise_isLE index source).and distinct).imp ?_
  rintro a b ⟨le, different⟩
  cases order : a.order b with
  | lt => rfl
  | gt =>
      rw [order] at le
      cases le
  | eq =>
      simp only [Candidate.order, compareLex, compareOn, Ordering.then_eq_eq,
        Std.compare_eq_iff_eq] at order
      exact absurd order.2.2.2 different

theorem rankedTargets_rankedFrom (index : RepoIndex) (source : String) :
    RankedFrom index source (rankedTargets index source) := by
  refine ⟨fun target confidence => mem_rankedTargets_iff, ?_, ?_⟩
  · unfold rankedTargets
    rw [List.map_map]
    exact nodup_map_id_candidates index source
  · intro caller known
    apply List.pairwise_map.mpr
    apply (candidates_pairwise_lt index source).imp_of_mem
    intro a b first second less
    obtain ⟨node, found, made⟩ := mem_candidates known first
    obtain ⟨other, also, built⟩ := mem_candidates known second
    rw [made, built] at less
    exact outranks_iff.mpr ⟨node, other, found, also, less⟩

theorem RankedFrom.of_toList {listed : List (String × Confidence)}
    (known : index.nodes[source]? = some caller)
    (same : listed.Perm (CallGraph.targets index source).toList)
    (ordered : listed.Pairwise (Outranks index caller)) : RankedFrom index source listed := by
  refine ⟨fun target confidence => ?_, ?_, ?_⟩
  · rw [same.mem_iff, Std.ExtTreeMap.mem_toList_iff_getElem?_eq_some, targets_eq_some_iff]
    simp [known]
  · exact (same.map Prod.fst).nodup_iff.mpr (TextMap.nodup_keys_toList _)
  · intro other found
    cases known.symm.trans found
    exact ordered

theorem RankedFrom.unique {listed others : List (String × Confidence)}
    (ranked : RankedFrom index source listed) (also : RankedFrom index source others) :
    listed = others := by
  have same (target : String × Confidence) : target ∈ listed ↔ target ∈ others := by
    rw [ranked.targets, also.targets]
  cases known : index.nodes[source]? with
  | none =>
      have empty {list : List (String × Confidence)} (ranked : RankedFrom index source list) :
          list = [] := by
        apply List.eq_nil_iff_forall_not_mem.mpr
        intro target member
        obtain ⟨⟨caller, found⟩, -⟩ := (ranked.targets target.1 target.2).mp member
        cases known.symm.trans found
      rw [empty ranked, empty also]
  | some caller =>
      have irreflexive : Std.Irrefl (Outranks index caller) := ⟨fun _ before => before.asymm before⟩
      have antisymmetric : Std.Antisymm (Outranks index caller) :=
        ⟨fun _ _ before after => absurd after before.asymm⟩
      exact (ranked.ordered caller known).eq_of_mem_iff (also.ordered caller known) same

end Listing

section Permutation

variable {index : RepoIndex} {edges : List GraphEdge} (perm : edges.Perm index.edges)
include perm

theorem score_perm (id : String) : score { index with edges } id = score index id := by
  have same : (calls { index with edges }).Perm (calls index) := perm.filter _
  have out : outCalls (calls { index with edges }) id = outCalls (calls index) id :=
    same.countP_eq _
  have into : inCalls (calls { index with edges }) id = inCalls (calls index) id := same.countP_eq _
  simp only [score, out, into]

theorem rank_perm (caller target : SymbolNode) (confidence : Confidence) :
    rank { index with edges } caller target confidence = rank index caller target confidence := by
  simp only [rank, score_perm perm]

theorem strongestCall_perm {source target : String} {confidence : Confidence} :
    StrongestCall { index with edges } source target confidence ↔
      StrongestCall index source target confidence := by
  constructor
  · rintro ⟨call, strongest⟩
    exact ⟨perm.mem_iff.mp call, fun other also => strongest other (perm.mem_iff.mpr also)⟩
  · rintro ⟨call, strongest⟩
    exact ⟨perm.mem_iff.mpr call, fun other also => strongest other (perm.mem_iff.mp also)⟩

theorem RankedFrom.of_perm {source : String} {listed : List (String × Confidence)}
    (ranked : RankedFrom index source listed) : RankedFrom { index with edges } source listed := by
  refine ⟨fun target confidence => ?_, ranked.once, fun caller known => ?_⟩
  · rw [ranked.targets, strongestCall_perm perm]
    rfl
  · have ordered := ranked.ordered caller known
    unfold Outranks at ordered ⊢
    simp only [rank_perm perm]
    exact ordered

theorem rankedTargets_perm (source : String) :
    rankedTargets { index with edges } source = rankedTargets index source :=
  (rankedTargets_rankedFrom _ source).unique ((rankedTargets_rankedFrom index source).of_perm perm)

end Permutation

end SourceAtlas.CallGraph

namespace SourceAtlas.Thread

open CallGraph (rankedTargets RankedFrom)

section Congruence

variable {index other : RepoIndex} (nodes : other.nodes = index.nodes)
  (ranked : ∀ source, rankedTargets other source = rankedTargets index source)
include nodes ranked

/-- Steps see nothing of an index but its nodes and the lists of ranked targets. -/
theorem steps_congr (maxScenes depth scenes : Nat) (visited : List String) (current : String)
    (forced : Option (String × Confidence)) :
    steps other maxScenes depth scenes visited current forced =
      steps index maxScenes depth scenes visited current forced := by
  induction depth generalizing scenes visited current forced with
  | zero => rfl
  | succ depth ih => simp only [steps, nodes, ranked, ih]

theorem walk_congr (config : StoryConfig) (entry : String) (forced : Option (String × Confidence)) :
    walk other config entry forced = walk index config entry forced := by
  simp only [walk, nodes, steps_congr nodes ranked]

theorem all_congr (config : StoryConfig) (entry : String) :
    all other config entry = all index config entry := by
  simp only [all, alternatives, ranked, walk_congr nodes ranked]

end Congruence

end SourceAtlas.Thread

namespace SourceAtlas.CallGraph

/-- The ranking determines the list of targets. So the calls may be found in any order. -/
theorem rankedTargets_determined (index : RepoIndex) :
    (∀ source listed, RankedFrom index source listed ↔ listed = rankedTargets index source) ∧
      ∀ edges : List GraphEdge, edges.Perm index.edges →
        (∀ source, rankedTargets { index with edges } source = rankedTargets index source) ∧
          ∀ config entry, Thread.all { index with edges } config entry =
            Thread.all index config entry := by
  constructor
  · intro source listed
    constructor
    · intro ranked
      exact ranked.unique (rankedTargets_rankedFrom index source)
    · rintro rfl
      exact rankedTargets_rankedFrom index source
  · intro edges perm
    have ranked := rankedTargets_perm perm
    exact ⟨ranked, Thread.all_congr rfl ranked⟩

/-- A function that calls itself, one target twice, and two others of one name and one rank. -/
def tiedCalls : RepoIndex :=
  .ofGraph
    (((((∅ : TextMap SymbolNode).insert
      "m" ⟨"m", "main", .function, "", none, none, some ⟨"a.py", 1, 2, 1, 1⟩, none⟩).insert
      "y" ⟨"y", "open", .function, "", none, none, some ⟨"b.py", 1, 2, 1, 1⟩, none⟩).insert
      "x" ⟨"x", "open", .function, "", none, none, some ⟨"c.py", 1, 2, 1, 1⟩, none⟩).insert
      "z" ⟨"z", "run", .method, "", none, none, some ⟨"c.py", 4, 6, 1, 1⟩, none⟩)
    [⟨"m", "x", .calls, .high⟩, ⟨"m", "z", .calls, .low⟩, ⟨"m", "y", .calls, .high⟩,
     ⟨"m", "m", .calls, .medium⟩, ⟨"m", "z", .calls, .medium⟩, ⟨"m", "external:log", .calls, .low⟩]

theorem tiedCalls_rankedFrom :
    RankedFrom tiedCalls "m" [("m", .medium), ("z", .medium), ("y", .high), ("x", .high)] := by
  have m : tiedCalls.nodes["m"]? =
      some ⟨"m", "main", .function, "", none, none, some ⟨"a.py", 1, 2, 1, 1⟩, none⟩ := by
    decide +kernel
  have x : tiedCalls.nodes["x"]? =
      some ⟨"x", "open", .function, "", none, none, some ⟨"c.py", 1, 2, 1, 1⟩, none⟩ := by
    decide +kernel
  have y : tiedCalls.nodes["y"]? =
      some ⟨"y", "open", .function, "", none, none, some ⟨"b.py", 1, 2, 1, 1⟩, none⟩ := by
    decide +kernel
  have z : tiedCalls.nodes["z"]? =
      some ⟨"z", "run", .method, "", none, none, some ⟨"c.py", 4, 6, 1, 1⟩, none⟩ := by
    decide +kernel
  refine .of_toList m (by decide +kernel) ?_
  simp only [List.pairwise_cons, List.forall_mem_cons, List.not_mem_nil, false_imp_iff,
    implies_true, List.Pairwise.nil, and_true]
  refine ⟨⟨?_, ?_, ?_⟩, ⟨?_, ?_⟩, ?_⟩
  · exact ⟨_, _, m, z, .inl (by decide +kernel)⟩
  · exact ⟨_, _, m, y, .inl (by decide +kernel)⟩
  · exact ⟨_, _, m, x, .inl (by decide +kernel)⟩
  · exact ⟨_, _, z, y, .inl (by decide +kernel)⟩
  · exact ⟨_, _, z, x, .inl (by decide +kernel)⟩
  · exact ⟨_, _, y, x, .inr ⟨by decide +kernel, .inr ⟨rfl, .inl (by decide +kernel)⟩⟩⟩

def tiedCallsBackwards : RepoIndex := { tiedCalls with edges := tiedCalls.edges.reverse }

theorem rankedTargets_determined_tiedCalls :
    tiedCalls.edges.reverse.Perm tiedCalls.edges ∧ tiedCalls.edges.reverse ≠ tiedCalls.edges ∧
      rankedTargets tiedCallsBackwards "m" =
        [("m", .medium), ("z", .medium), ("y", .high), ("x", .high)] ∧
      Thread.all tiedCallsBackwards {} "m" = Thread.all tiedCalls {} "m" := by
  have perm := List.reverse_perm tiedCalls.edges
  obtain ⟨determined, permuted⟩ := rankedTargets_determined tiedCalls
  obtain ⟨same, threads⟩ := permuted tiedCalls.edges.reverse perm
  refine ⟨perm, by decide, ?_, threads {} "m"⟩
  exact (same "m").trans ((determined "m" _).mp tiedCalls_rankedFrom).symm

end SourceAtlas.CallGraph
