/- The search for a method through the bases of a type ends with an answer whenever there is one:
what it has not looked at yet fits into the steps that it has left. -/
import Mathlib.Logic.Relation
import SourceAtlas.Proofs.TextMap
import SourceAtlas.Tables

namespace SourceAtlas.SymbolTables

variable {tables : SymbolTables} {name : String}

/-- One type comes after another when bases are followed, also after no step. -/
def Reaches (tables : SymbolTables) : String → String → Prop :=
  Relation.ReflTransGen fun typeId base => base ∈ tables.basesOf typeId

/-- The recorded bases of the types that were not seen. -/
def unseenBases (tables : SymbolTables) (seen : List String) : List String :=
  (tables.bases.toList.filter fun entry => entry.1 ∉ seen).flatMap Prod.snd

theorem length_unseenBases_nil : (tables.unseenBases []).length = tables.baseCount := by
  have counted : ∀ (lists : List (List String)) (start : Nat),
      lists.foldl (fun count bases => count + bases.length) start =
        start + lists.flatten.length := by
    intro lists
    induction lists with
    | nil => simp
    | cons bases lists ih =>
        intro start
        rw [List.foldl_cons, ih, List.flatten_cons, List.length_append, Nat.add_assoc]
  have all : tables.unseenBases [] = tables.bases.values.flatten := by
    rw [unseenBases, List.filter_eq_self.mpr (by simp), List.flatMap_def,
      TextMap.values_eq_map_toList]
  rw [all, baseCount, counted, Nat.zero_add]

/-- A type that is seen takes its own bases from those that are left, and no others. -/
theorem length_unseenBases_cons {seen : List String} {current : String} (new : current ∉ seen) :
    (tables.unseenBases (current :: seen)).length + (tables.basesOf current).length =
      (tables.unseenBases seen).length := by
  have other {entries : List (String × List String)} (apart : current ∉ entries.map Prod.fst) :
      (entries.filter fun entry => entry.1 ∉ current :: seen) = entries.filter fun entry =>
        entry.1 ∉ seen := by
    refine List.filter_congr fun entry member => ?_
    have different : entry.1 ≠ current := fun same => apart (same ▸ List.mem_map_of_mem member)
    simp [different]
  rw [basesOf, Std.ExtTreeMap.getD_eq_getD_getElem?]
  cases found : tables.bases[current]? with
  | none =>
      have apart : current ∉ tables.bases.toList.map Prod.fst := by
        intro member
        obtain ⟨⟨key, bases⟩, listed, rfl⟩ := List.mem_map.mp member
        rw [Std.ExtTreeMap.mem_toList_iff_getElem?_eq_some.mp listed] at found
        cases found
      rw [unseenBases, other apart, Option.getD_none, List.length_nil]
      rfl
  | some bases =>
      obtain ⟨before, after, split⟩ :=
        List.append_of_mem (Std.ExtTreeMap.mem_toList_iff_getElem?_eq_some.mpr found)
      have distinct := TextMap.nodup_keys_toList tables.bases
      rw [split, List.map_append, List.map_cons, List.nodup_append, List.nodup_cons] at distinct
      have first : current ∉ before.map Prod.fst :=
        fun member => distinct.2.2 _ member _ (by simp) rfl
      simp only [unseenBases, split, List.filter_append, List.filter_cons, other first,
        other distinct.2.1.1]
      simp [new]
      omega

/-- A search that finds nothing has seen all that it could come to, and none of it has the
method. -/
theorem searchHierarchy_closed {fuel : Nat} {seen queue : List String}
    (missed : tables.searchHierarchy name fuel seen queue = none)
    (enough : queue.length + (tables.unseenBases seen).length ≤ fuel)
    (clean : ∀ typeId ∈ seen, tables.method? typeId name = none ∧
      ∀ base ∈ tables.basesOf typeId, base ∈ seen ∨ base ∈ queue) :
    ∃ closed : List String, (∀ typeId, typeId ∈ seen ∨ typeId ∈ queue → typeId ∈ closed) ∧
      ∀ typeId ∈ closed, tables.method? typeId name = none ∧ ∀ base ∈ tables.basesOf typeId,
        base ∈ closed := by
  fun_induction searchHierarchy tables name fuel seen queue with
  | case1 seen queue =>
      obtain rfl : queue = [] := List.eq_nil_of_length_eq_zero (by omega)
      exact ⟨seen, by simp, by simpa using clean⟩
  | case2 fuel seen => exact ⟨seen, by simp, by simpa using clean⟩
  | case3 fuel seen current queue old ih =>
      have kept (typeId : String) (member : typeId ∈ seen ∨ typeId ∈ current :: queue) :
          typeId ∈ seen ∨ typeId ∈ queue := by
        rw [List.mem_cons] at member
        rcases member with known | rfl | later
        · exact .inl known
        · exact .inl old
        · exact .inr later
      have left : queue.length + (tables.unseenBases seen).length ≤ fuel := by
        rw [List.length_cons] at enough
        omega
      obtain ⟨closed, inside, all⟩ := ih missed left fun typeId member =>
        ⟨(clean typeId member).1,
          fun base listed => kept base ((clean typeId member).2 base listed)⟩
      exact ⟨closed, fun typeId member => inside typeId (kept typeId member), all⟩
  | case4 => cases missed
  | case5 fuel seen current queue new missing ih =>
      have kept (typeId : String) (member : typeId ∈ seen ∨ typeId ∈ current :: queue) :
          typeId ∈ current :: seen ∨ typeId ∈ queue ++ tables.basesOf current := by
        rw [List.mem_cons] at member
        rcases member with known | rfl | later
        · exact .inl (List.mem_cons_of_mem current known)
        · exact .inl List.mem_cons_self
        · exact .inr (List.mem_append_left _ later)
      have left : (queue ++ tables.basesOf current).length +
          (tables.unseenBases (current :: seen)).length ≤ fuel := by
        have fewer := tables.length_unseenBases_cons new
        rw [List.length_cons] at enough
        rw [List.length_append]
        omega
      obtain ⟨closed, inside, all⟩ := ih missed left (by
        intro typeId member
        rcases List.mem_cons.mp member with rfl | known
        · exact ⟨missing, fun base listed => .inr (List.mem_append_right queue listed)⟩
        · exact ⟨(clean typeId known).1,
            fun base listed => kept base ((clean typeId known).2 base listed)⟩)
      exact ⟨closed, fun typeId member => inside typeId (kept typeId member), all⟩

theorem searchHierarchy_reaches {fuel : Nat} {seen queue : List String} {start id : String}
    (reached : ∀ typeId ∈ queue, tables.Reaches start typeId)
    (found : tables.searchHierarchy name fuel seen queue = some id) :
    ∃ typeId, tables.Reaches start typeId ∧ tables.method? typeId name = some id := by
  fun_induction searchHierarchy tables name fuel seen queue with
  | case1 => cases found
  | case2 => cases found
  | case3 fuel seen current queue old ih =>
      exact ih (fun typeId member => reached typeId (List.mem_cons_of_mem current member)) found
  | case4 fuel seen current queue new method known =>
      cases found
      exact ⟨current, reached current List.mem_cons_self, known⟩
  | case5 fuel seen current queue new missing ih =>
      refine ih (fun typeId member => ?_) found
      rcases List.mem_append.mp member with waiting | base
      · exact reached typeId (List.mem_cons_of_mem current waiting)
      · exact (reached current List.mem_cons_self).tail base

theorem methodInHierarchy?_reaches {typeId id : String}
    (found : tables.methodInHierarchy? typeId name = some id) :
    ∃ reached, tables.Reaches typeId reached ∧ tables.method? reached name = some id := by
  refine searchHierarchy_reaches (fun other member => ?_) found
  rw [List.mem_singleton.mp member]
  exact .refl

/-- No method is found exactly when none of the types that bases lead to has one. -/
theorem methodInHierarchy?_eq_none_iff {typeId : String} :
    tables.methodInHierarchy? typeId name = none ↔
      ∀ reached, tables.Reaches typeId reached → tables.method? reached name = none := by
  constructor
  · intro missed reached path
    have enough : [typeId].length + (tables.unseenBases []).length ≤ tables.baseCount + 1 := by
      rw [length_unseenBases_nil, List.length_singleton]
      omega
    obtain ⟨closed, inside, all⟩ := searchHierarchy_closed missed enough (by simp)
    have member : reached ∈ closed := by
      induction path with
      | refl => exact inside typeId (by simp)
      | tail _ base ih => exact (all _ ih).2 _ base
    exact (all reached member).1
  · intro nowhere
    cases found : tables.methodInHierarchy? typeId name with
    | none => rfl
    | some id =>
        obtain ⟨reached, path, known⟩ := methodInHierarchy?_reaches found
        rw [nowhere reached path] at known
        cases known

end SourceAtlas.SymbolTables
