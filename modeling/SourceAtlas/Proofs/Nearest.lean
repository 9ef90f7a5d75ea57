/- The search for a method comes to types in the order of their distance, and at one distance in the
order in which recorded bases are explored. All that it passes over it has been to before, so it
answers like a search that passes over nothing and goes through one distance after the other. -/
import Mathlib.Data.List.Basic
import Mathlib.Data.Nat.Find
import SourceAtlas.Proofs.Hierarchy

namespace SourceAtlas.SymbolTables

variable {tables : SymbolTables} {name start : String}

/-- The search as a loop that goes on until it has an answer, whatever number of turns that
takes. -/
inductive Searches (tables : SymbolTables) (name : String) :
    List String → List String → Option String → Prop
  | exhausted {seen : List String} : Searches tables name seen [] none
  | again {seen queue : List String} {current : String} {answer : Option String}
      (old : current ∈ seen)
      (rest : Searches tables name seen queue answer) :
        Searches tables name seen (current :: queue) answer
  | found {seen queue : List String} {current id : String} (new : current ∉ seen)
      (known : tables.method? current name = some id) :
        Searches tables name seen (current :: queue) (some id)
  | onward {seen queue : List String} {current : String} {answer : Option String}
      (new : current ∉ seen)
      (missing : tables.method? current name = none)
      (rest : Searches tables name (current :: seen) (queue ++ tables.basesOf current) answer) :
      Searches tables name seen (current :: queue) answer

theorem searchHierarchy_searches {fuel : Nat} {seen queue : List String}
    (enough : queue.length + (tables.unseenBases seen).length ≤ fuel) :
    tables.Searches name seen queue (tables.searchHierarchy name fuel seen queue) := by
  fun_induction searchHierarchy tables name fuel seen queue with
  | case1 seen queue =>
      obtain rfl : queue = [] := List.eq_nil_of_length_eq_zero (by omega)
      exact .exhausted
  | case2 fuel seen => exact .exhausted
  | case3 fuel seen current queue old ih =>
      apply Searches.again old
      apply ih
      rw [List.length_cons] at enough
      omega
  | case4 fuel seen current queue new id known => exact .found new known
  | case5 fuel seen current queue new missing ih =>
      apply Searches.onward new missing
      apply ih
      have fewer := tables.length_unseenBases_cons new
      rw [List.length_cons] at enough
      rw [List.length_append]
      omega

/-- The loop ends from every type, and with the answer of the bounded search. -/
theorem methodInHierarchy?_searches (tables : SymbolTables) (start name : String) :
    tables.Searches name [] [start] (tables.methodInHierarchy? start name) := by
  apply searchHierarchy_searches
  rw [length_unseenBases_nil, List.length_singleton]
  omega

/-- The ends of the ways of one length through bases, with bases explored in recorded order. A type
to which several such ways lead is listed for each of them. -/
def ancestors (tables : SymbolTables) (start : String) : Nat → List String
  | 0 => [start]
  | steps + 1 => (tables.ancestors start steps).flatMap tables.basesOf

/-- The length of the shortest ways through bases from one type to another. -/
structure Distance (tables : SymbolTables) (start typeId : String) (steps : Nat) : Prop where
  reached : typeId ∈ tables.ancestors start steps
  shortest : ∀ fewer < steps, typeId ∉ tables.ancestors start fewer

theorem reaches_iff {typeId : String} :
    tables.Reaches start typeId ↔ ∃ steps, typeId ∈ tables.ancestors start steps := by
  constructor
  · intro path
    induction path with
    | refl => exact ⟨0, List.mem_singleton.mpr rfl⟩
    | tail _ base ih =>
        obtain ⟨steps, member⟩ := ih
        exact ⟨steps + 1, List.mem_flatMap.mpr ⟨_, member, base⟩⟩
  · rintro ⟨steps, member⟩
    induction steps generalizing typeId with
    | zero =>
        rw [List.mem_singleton.mp member]
        exact .refl
    | succ steps ih =>
        obtain ⟨middle, listed, base⟩ := List.mem_flatMap.mp member
        exact (ih listed).tail base

section Visits

/-- The types of a list to which a search goes: each where it stands first, and none seen before. -/
def visits (seen : List String) : List String → List String
  | [] => []
  | typeId :: rest =>
      if typeId ∈ seen then visits seen rest else typeId :: visits (typeId :: seen) rest

variable {seen others list : List String} {typeId : String}

theorem visits_of_mem (old : typeId ∈ seen) : visits seen (typeId :: list) = visits seen list := by
  rw [visits, if_pos old]

theorem visits_of_not_mem (new : typeId ∉ seen) :
    visits seen (typeId :: list) = typeId :: visits (typeId :: seen) list := by
  rw [visits, if_neg new]

@[simp] theorem mem_visits : typeId ∈ visits seen list ↔ typeId ∈ list ∧ typeId ∉ seen := by
  induction list generalizing seen with
  | nil => simp [visits]
  | cons head rest ih =>
      by_cases old : head ∈ seen
      · rw [visits_of_mem old, ih, List.mem_cons]
        constructor
        · rintro ⟨later, new⟩
          exact ⟨.inr later, new⟩
        · rintro ⟨rfl | later, new⟩
          · exact absurd old new
          · exact ⟨later, new⟩
      · rw [visits_of_not_mem old, List.mem_cons, ih, List.mem_cons, List.mem_cons]
        by_cases same : typeId = head
        · simp [same, old]
        · simp [same]

theorem visits_congr (same : ∀ typeId, typeId ∈ seen ↔ typeId ∈ others) :
    visits seen list = visits others list := by
  induction list generalizing seen others with
  | nil => rfl
  | cons head rest ih =>
      by_cases old : head ∈ seen
      · rw [visits_of_mem old, visits_of_mem ((same head).mp old), ih same]
      · rw [visits_of_not_mem old, visits_of_not_mem fun known => old ((same head).mpr known)]
        congr 1
        apply ih
        intro typeId
        rw [List.mem_cons, List.mem_cons, same]

theorem visits_append (seen first second : List String) :
    visits seen (first ++ second) = visits seen first ++ visits (first ++ seen) second := by
  induction first generalizing seen with
  | nil => rfl
  | cons head rest ih =>
      by_cases old : head ∈ seen
      · rw [List.cons_append, visits_of_mem old, visits_of_mem old, ih]
        congr 1
        apply visits_congr
        intro typeId
        simp only [List.mem_cons, List.mem_append, List.cons_append]
        refine ⟨.inr, ?_⟩
        rintro (rfl | known)
        · exact .inr old
        · exact known
      · rw [List.cons_append, visits_of_not_mem old, visits_of_not_mem old, ih, List.cons_append]
        congr 2
        apply visits_congr
        intro typeId
        simp only [List.mem_cons, List.mem_append, List.cons_append]
        exact or_left_comm

/-- Where the bases of all seen types count as seen, the bases of the visited types are visited like
those of the whole list. -/
theorem visits_flatMap {part : String → List String}
    (closed : ∀ typeId ∈ seen, part typeId ⊆ others) :
    visits others ((visits seen list).flatMap part) = visits others (list.flatMap part) := by
  induction list generalizing seen others with
  | nil => rfl
  | cons head rest ih =>
      rw [List.flatMap_cons, visits_append]
      by_cases old : head ∈ seen
      · have nothing : visits others (part head) = [] := by
          apply List.eq_nil_iff_forall_not_mem.mpr
          intro typeId member
          obtain ⟨listed, new⟩ := mem_visits.mp member
          exact new (closed head old listed)
        rw [visits_of_mem old, ih closed, nothing, List.nil_append]
        apply visits_congr
        intro typeId
        rw [List.mem_append]
        exact ⟨.inr, fun known => known.elim (fun listed => closed head old listed) id⟩
      · rw [visits_of_not_mem old, List.flatMap_cons, visits_append]
        congr 1
        apply ih
        intro typeId known base listed
        rw [List.mem_append]
        rcases List.mem_cons.mp known with rfl | earlier
        · exact .inl listed
        · exact .inr (closed typeId earlier listed)

theorem findSome?_visits {answer : String → Option String}
    (clean : ∀ typeId ∈ seen, answer typeId = none) :
    (visits seen list).findSome? answer = list.findSome? answer := by
  induction list generalizing seen with
  | nil => rfl
  | cons head rest ih =>
      by_cases old : head ∈ seen
      · rw [visits_of_mem old, ih clean, List.findSome?_cons, clean head old]
      · rw [visits_of_not_mem old, List.findSome?_cons, List.findSome?_cons]
        cases here : answer head with
        | some id => rfl
        | none =>
            apply ih
            intro typeId known
            rcases List.mem_cons.mp known with rfl | earlier
            · exact here
            · exact clean typeId earlier

end Visits

namespace Searches

variable {seen now next : List String} {answer : Option String}

/-- A search stops at the first type in the front of its queue that has the method. -/
theorem eq_of_front (search : tables.Searches name seen (now ++ next) answer) {id : String}
    (hit : (visits seen now).findSome? (fun typeId => tables.method? typeId name) = some id) :
    answer = some id := by
  induction now generalizing seen next with
  | nil => cases hit
  | cons head rest ih =>
      rw [List.cons_append] at search
      cases search with
      | again old search =>
          rw [visits_of_mem old] at hit
          exact ih search hit
      | found new known =>
          rw [visits_of_not_mem new, List.findSome?_cons, known] at hit
          exact hit
      | onward new missing search =>
          rw [visits_of_not_mem new, List.findSome?_cons, missing] at hit
          rw [List.append_assoc] at search
          exact ih search hit

/-- A search that finds nothing in the front of its queue goes on with the bases of what it visited
there. -/
theorem past_front (search : tables.Searches name seen (now ++ next) answer)
    (miss : (visits seen now).findSome? (fun typeId => tables.method? typeId name) = none) :
    ∃ passed, (∀ typeId, typeId ∈ passed ↔ typeId ∈ now ∨ typeId ∈ seen) ∧
      tables.Searches name passed (next ++ (visits seen now).flatMap tables.basesOf) answer := by
  induction now generalizing seen next with
  | nil => exact ⟨seen, by simp, by simpa [visits] using search⟩
  | cons head rest ih =>
      rw [List.cons_append] at search
      cases search with
      | again old search =>
          rw [visits_of_mem old] at miss ⊢
          obtain ⟨passed, members, onward⟩ := ih search miss
          refine ⟨passed, fun typeId => ?_, onward⟩
          rw [members, List.mem_cons, or_assoc]
          refine ⟨.inr, ?_⟩
          rintro (rfl | known)
          · exact .inr old
          · exact known
      | found new known =>
          rw [visits_of_not_mem new, List.findSome?_cons, known] at miss
          cases miss
      | onward new missing search =>
          rw [visits_of_not_mem new, List.findSome?_cons, missing] at miss
          rw [List.append_assoc] at search
          obtain ⟨passed, members, onward⟩ := ih search miss
          refine ⟨passed, fun typeId => ?_, ?_⟩
          · rw [members, List.mem_cons, List.mem_cons, or_assoc]
            exact or_left_comm
          · rw [visits_of_not_mem new, List.flatMap_cons, ← List.append_assoc]
            exact onward

/-- A search that has found nothing so far has seen the types at all smaller distances, and visits
next what stands at the following one. -/
theorem at_distance {steps : Nat} (search : tables.Searches name [] [start] answer)
    (clean : ∀ fewer < steps, ∀ typeId ∈ tables.ancestors start fewer,
      tables.method? typeId name = none) :
    ∃ seen queue, tables.Searches name seen queue answer ∧
      (∀ typeId, typeId ∈ seen ↔ ∃ fewer < steps, typeId ∈ tables.ancestors start fewer) ∧
      visits seen queue = visits seen (tables.ancestors start steps) := by
  induction steps with
  | zero => exact ⟨[], [start], search, by simp, rfl⟩
  | succ steps ih =>
      obtain ⟨seen, queue, search, known, alike⟩ := ih fun fewer less => clean fewer (by omega)
      have missing : ∀ typeId ∈ seen, tables.method? typeId name = none := by
        intro typeId member
        obtain ⟨fewer, less, listed⟩ := (known typeId).mp member
        exact clean fewer (by omega) typeId listed
      have miss : (visits seen queue).findSome? (fun typeId => tables.method? typeId name) =
          none := by
        rw [alike, findSome?_visits missing, List.findSome?_eq_none_iff]
        exact clean steps (by omega)
      obtain ⟨passed, members, onward⟩ := past_front (by rwa [List.append_nil]) miss
      have passed_iff (typeId : String) :
          typeId ∈ passed ↔ ∃ fewer < steps + 1, typeId ∈ tables.ancestors start fewer := by
        have here : typeId ∈ queue ∨ typeId ∈ seen ↔
            typeId ∈ tables.ancestors start steps ∨ typeId ∈ seen := by
          by_cases old : typeId ∈ seen
          · simp [old]
          · have same := congrArg (typeId ∈ ·) alike
            simp only [mem_visits, old, not_false_eq_true, and_true, eq_iff_iff] at same
            rw [same]
        rw [members, here, known]
        constructor
        · rintro (level | ⟨fewer, less, listed⟩)
          · exact ⟨steps, by omega, level⟩
          · exact ⟨fewer, by omega, listed⟩
        · rintro ⟨fewer, less, listed⟩
          rcases Nat.lt_succ_iff_lt_or_eq.mp less with before | rfl
          · exact .inr ⟨fewer, before, listed⟩
          · exact .inl listed
      refine ⟨passed, (visits seen queue).flatMap tables.basesOf, onward, passed_iff, ?_⟩
      rw [alike]
      apply visits_flatMap
      intro typeId member base listed
      obtain ⟨fewer, less, inside⟩ := (known typeId).mp member
      exact (passed_iff base).mpr
        ⟨fewer + 1, by omega, List.mem_flatMap.mpr ⟨typeId, inside, listed⟩⟩

end Searches

/-- The first method at the smallest distance that has any. -/
theorem methodInHierarchy?_of_level {steps : Nat} {id : String}
    (clean : ∀ fewer < steps, ∀ typeId ∈ tables.ancestors start fewer,
      tables.method? typeId name = none)
    (hit : (tables.ancestors start steps).findSome? (fun typeId => tables.method? typeId name) =
      some id) :
    tables.methodInHierarchy? start name = some id := by
  obtain ⟨seen, queue, search, known, alike⟩ :=
    (methodInHierarchy?_searches tables start name).at_distance clean
  rw [← List.append_nil queue] at search
  apply search.eq_of_front
  rw [alike, findSome?_visits, hit]
  intro typeId member
  obtain ⟨fewer, less, listed⟩ := (known typeId).mp member
  exact clean fewer less typeId listed

theorem exists_level {typeId : String} (reached : tables.Reaches start typeId)
    (method : tables.method? typeId name ≠ none) :
    ∃ steps, (∀ fewer < steps, ∀ other ∈ tables.ancestors start fewer,
      tables.method? other name = none) ∧
      (tables.ancestors start steps).findSome? (fun other => tables.method? other name) ≠ none := by
  have found : ∃ steps, (tables.ancestors start steps).findSome?
      (fun other => tables.method? other name) ≠ none := by
    obtain ⟨steps, member⟩ := reaches_iff.mp reached
    refine ⟨steps, fun absent => method ?_⟩
    exact List.findSome?_eq_none_iff.mp absent typeId member
  refine ⟨Nat.find found, fun fewer less => ?_, Nat.find_spec found⟩
  have earlier := Nat.find_min found less
  rw [not_not, List.findSome?_eq_none_iff] at earlier
  exact earlier

/-- The search for a method ends for all tables, with nothing exactly when no type that can be
reached has the method, and otherwise with the method of the nearest type: at the smallest distance
at which there is one, and there the first when bases are explored in recorded order. -/
theorem methodInHierarchy?_nearest (tables : SymbolTables) (start name : String) :
    tables.Searches name [] [start] (tables.methodInHierarchy? start name) ∧
    (tables.methodInHierarchy? start name = none ↔
      ∀ typeId, tables.Reaches start typeId → tables.method? typeId name = none) ∧
    ∀ id, tables.methodInHierarchy? start name = some id →
      ∃ typeId steps, tables.method? typeId name = some id ∧ tables.Distance start typeId steps ∧
        (∀ other further, tables.Distance start other further → tables.method? other name ≠ none →
          steps ≤ further) ∧
        ∀ other, tables.Distance start other steps → tables.method? other name ≠ none →
          (tables.ancestors start steps).idxOf typeId ≤
            (tables.ancestors start steps).idxOf other := by
  refine ⟨methodInHierarchy?_searches tables start name, methodInHierarchy?_eq_none_iff,
    fun id answer => ?_⟩
  obtain ⟨holder, reached, method⟩ := methodInHierarchy?_reaches answer
  have has : tables.method? holder name ≠ none := by simp [method]
  obtain ⟨steps, clean, hit⟩ := exists_level reached has
  obtain ⟨found, first⟩ := Option.ne_none_iff_exists'.mp hit
  obtain rfl : found = id := by
    rw [methodInHierarchy?_of_level clean first] at answer
    exact Option.some.inj answer
  obtain ⟨before, typeId, after, split, known, earlier⟩ := List.findSome?_eq_some_iff.mp first
  have skipped {other : String} (has : tables.method? other name ≠ none) : other ∉ before :=
    fun member => has (earlier other member)
  refine ⟨typeId, steps, known, ⟨by simp [split], fun fewer less member => ?_⟩,
    fun other further far has => ?_, fun other _ has => ?_⟩
  · rw [clean fewer less typeId member] at known
    cases known
  · by_contra nearer
    exact has (clean further (by omega) other far.reached)
  · rw [split, List.idxOf_append_of_notMem (skipped (by simp [known])),
      List.idxOf_append_of_notMem (skipped has), List.idxOf_cons_self]
    omega

end SourceAtlas.SymbolTables
