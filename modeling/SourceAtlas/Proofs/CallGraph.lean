/- What the ranked targets of a node are: the nodes of the repository that it calls, each with the
strongest of the calls to it. -/
import SourceAtlas.Story.CallGraph

namespace SourceAtlas

@[simp] theorem Confidence.rank_max (a b : Confidence) :
    (a.max b).rank = Nat.max a.rank b.rank := by
  cases a <;> cases b <;> rfl

theorem Confidence.max_eq (a b : Confidence) : a.max b = a ∨ a.max b = b := by
  unfold Confidence.max
  split
  · exact .inr rfl
  · exact .inl rfl

theorem Confidence.eq_of_rank {a b : Confidence} (same : a.rank = b.rank) : a = b := by
  cases a <;> cases b <;> first | rfl | cases same

namespace CallGraph

/-- One node calls another with a given confidence, and no call between the two has a stronger
one. -/
structure StrongestCall (index : RepoIndex) (source target : String) (confidence : Confidence) :
    Prop where
  call : (⟨source, target, .calls, confidence⟩ : GraphEdge) ∈ index.edges
  strongest : ∀ other, (⟨source, target, .calls, other⟩ : GraphEdge) ∈ index.edges →
    other.rank ≤ confidence.rank

theorem StrongestCall.unique {index : RepoIndex} {source target : String} {a b : Confidence}
    (first : StrongestCall index source target a) (second : StrongestCall index source target b) :
    a = b := by
  have below := second.strongest a first.call
  have above := first.strongest b second.call
  exact Confidence.eq_of_rank (by omega)

theorem exists_strongestCall {index : RepoIndex} {source target : String} {confidence : Confidence}
    (call : (⟨source, target, .calls, confidence⟩ : GraphEdge) ∈ index.edges) :
    ∃ strongest, StrongestCall index source target strongest := by
  by_cases high : (⟨source, target, .calls, .high⟩ : GraphEdge) ∈ index.edges
  · exact ⟨.high, high, fun other _ => by cases other <;> decide⟩
  by_cases medium : (⟨source, target, .calls, .medium⟩ : GraphEdge) ∈ index.edges
  · refine ⟨.medium, medium, fun other also => ?_⟩
    cases other with
    | high => exact absurd also high
    | medium => decide
    | low => decide
  · cases confidence with
    | high => exact absurd call high
    | medium => exact absurd call medium
    | low =>
        refine ⟨.low, call, fun other also => ?_⟩
        cases other with
        | high => exact absurd also high
        | medium => exact absurd also medium
        | low => decide

/-- The map that keeps the strongest confidence of the edges to each target. -/
def keepStrongest (map : TextMap Confidence) (edge : GraphEdge) : TextMap Confidence :=
  map.insert edge.target (match map[edge.target]? with
    | some known => known.max edge.confidence
    | none => edge.confidence)

section Keeping

variable {map : TextMap Confidence} {target : String} {kept known : Confidence}

theorem keepStrongest_origin {edge : GraphEdge}
    (found : (keepStrongest map edge)[target]? = some kept) :
    map[target]? = some kept ∨ edge.target = target ∧ edge.confidence = kept := by
  rw [keepStrongest, TextMap.get?_put] at found
  by_cases same : edge.target = target
  · subst same
    rw [if_pos rfl] at found
    cases before : map[edge.target]? with
    | none =>
        simp only [before, Option.some.injEq] at found
        exact .inr ⟨rfl, found⟩
    | some known =>
        simp only [before, Option.some.injEq] at found
        rcases Confidence.max_eq known edge.confidence with left | right
        · exact .inl (congrArg some (left.symm.trans found))
        · exact .inr ⟨rfl, right.symm.trans found⟩
  · rw [if_neg same] at found
    exact .inl found

theorem keepStrongest_covers (map : TextMap Confidence) (edge : GraphEdge) :
    ∃ kept, (keepStrongest map edge)[edge.target]? = some kept ∧
      edge.confidence.rank ≤ kept.rank := by
  rw [keepStrongest, TextMap.get?_put, if_pos rfl]
  cases map[edge.target]? with
  | none => exact ⟨edge.confidence, rfl, Nat.le_refl _⟩
  | some known =>
      refine ⟨known.max edge.confidence, rfl, ?_⟩
      rw [Confidence.rank_max]
      exact Nat.le_max_right _ _

theorem keepStrongest_grows (before : map[target]? = some known) (edge : GraphEdge) :
    ∃ kept, (keepStrongest map edge)[target]? = some kept ∧ known.rank ≤ kept.rank := by
  rw [keepStrongest, TextMap.get?_put]
  by_cases same : edge.target = target
  · subst same
    refine ⟨known.max edge.confidence, by simp [before], ?_⟩
    rw [Confidence.rank_max]
    exact Nat.le_max_left _ _
  · exact ⟨known, by rw [if_neg same, before], Nat.le_refl _⟩

/-- What is kept for a target in the end was there or belongs to an edge to it. -/
theorem foldl_keepStrongest_origin {edges : List GraphEdge}
    (found : (edges.foldl keepStrongest map)[target]? = some kept) :
    map[target]? = some kept ∨ ∃ edge ∈ edges, edge.target = target ∧ edge.confidence = kept := by
  induction edges generalizing map with
  | nil => exact .inl found
  | cons head rest ih =>
      rcases ih found with stored | ⟨edge, member, origin⟩
      · rcases keepStrongest_origin stored with old | new
        · exact .inl old
        · exact .inr ⟨head, by simp, new⟩
      · exact .inr ⟨edge, by simp [member], origin⟩

theorem foldl_keepStrongest_grows (before : map[target]? = some known) (edges : List GraphEdge) :
    ∃ kept, (edges.foldl keepStrongest map)[target]? = some kept ∧ known.rank ≤ kept.rank := by
  induction edges generalizing map known with
  | nil => exact ⟨known, before, Nat.le_refl _⟩
  | cons head rest ih =>
      obtain ⟨next, stored, below⟩ := keepStrongest_grows before head
      obtain ⟨last, final, above⟩ := ih stored
      exact ⟨last, final, Nat.le_trans below above⟩

/-- Something at least as strong as every edge to a target is kept for it. -/
theorem foldl_keepStrongest_covers {edges : List GraphEdge} {edge : GraphEdge}
    (member : edge ∈ edges) (map : TextMap Confidence) :
    ∃ kept, (edges.foldl keepStrongest map)[edge.target]? = some kept ∧
      edge.confidence.rank ≤ kept.rank := by
  induction edges generalizing map with
  | nil => cases member
  | cons head rest ih =>
      rcases List.mem_cons.mp member with rfl | later
      · obtain ⟨next, stored, below⟩ := keepStrongest_covers map edge
        obtain ⟨last, final, above⟩ := foldl_keepStrongest_grows stored rest
        exact ⟨last, final, Nat.le_trans below above⟩
      · exact ih later _

end Keeping

/-- There is a node of the repository with this id. -/
def InRepository (index : RepoIndex) (id : String) : Prop :=
  ∃ node, index.nodes[id]? = some node ∧ node.kind ≠ .external

theorem targets_eq_some_iff {index : RepoIndex} {source target : String} {confidence : Confidence} :
    (targets index source)[target]? = some confidence ↔
      InRepository index target ∧ StrongestCall index source target confidence := by
  have inside (id : String) : ((index.nodes[id]?).any fun node => !node.isExternal) = true ↔
      InRepository index id := by
    simp [InRepository, Option.any_eq_true, SymbolNode.isExternal]
  have listed (edge : GraphEdge) : edge ∈ ((calls index).filter fun edge => edge.source == source &&
      (index.nodes[edge.target]?).any fun node => !node.isExternal) ↔
        (edge ∈ index.edges ∧ edge.kind = .calls) ∧ edge.source = source ∧
          InRepository index edge.target := by
    rw [List.mem_filter, calls, List.mem_filter, Bool.and_eq_true, inside, beq_iff_eq, beq_iff_eq]
  have covered {other : Confidence} (internal : InRepository index target)
      (call : (⟨source, target, .calls, other⟩ : GraphEdge) ∈ index.edges) :
      ∃ kept, (targets index source)[target]? = some kept ∧ other.rank ≤ kept.rank :=
    foldl_keepStrongest_covers ((listed _).mpr ⟨⟨call, rfl⟩, rfl, internal⟩) ∅
  have sound {kept : Confidence} (found : (targets index source)[target]? = some kept) :
      InRepository index target ∧ StrongestCall index source target kept := by
    rcases foldl_keepStrongest_origin found with initial |
      ⟨⟨start, stop, kind, strength⟩, member, rfl, rfl⟩
    · cases Std.ExtTreeMap.getElem?_empty.symm.trans initial
    · obtain ⟨⟨known, rfl⟩, rfl, internal⟩ := (listed _).mp member
      refine ⟨internal, known, fun other call => ?_⟩
      obtain ⟨kept, stored, below⟩ := covered internal call
      cases stored.symm.trans found
      exact below
  refine ⟨sound, fun ⟨internal, strongest⟩ => ?_⟩
  obtain ⟨kept, found, -⟩ := covered internal strongest.call
  rw [found, strongest.unique (sound found).2]

/-- The ranking only orders the targets. -/
theorem mem_rankedTargets_iff {index : RepoIndex} {source target : String}
    {confidence : Confidence} :
    (target, confidence) ∈ rankedTargets index source ↔
      (∃ caller, index.nodes[source]? = some caller) ∧ InRepository index target ∧
        StrongestCall index source target confidence := by
  unfold rankedTargets candidates
  cases known : index.nodes[source]? with
  | none => simp
  | some caller =>
      simp only [List.mem_map, List.mem_mergeSort, List.mem_filterMap, Option.map_eq_some_iff]
      constructor
      · rintro ⟨candidate, ⟨⟨id, strength⟩, member, node, found, rfl⟩, same⟩
        cases same
        exact ⟨⟨caller, rfl⟩, targets_eq_some_iff.mp
          (Std.ExtTreeMap.mem_toList_iff_getElem?_eq_some.mp member)⟩
      · rintro ⟨-, internal, strongest⟩
        have stored := targets_eq_some_iff.mpr ⟨internal, strongest⟩
        obtain ⟨node, found, -⟩ := internal
        exact ⟨_, ⟨(target, confidence), Std.ExtTreeMap.mem_toList_iff_getElem?_eq_some.mpr stored,
          node, found, rfl⟩, rfl⟩

end CallGraph

end SourceAtlas
