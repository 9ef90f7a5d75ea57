/- Sorted lists, lists taken class by class, look-ups in lists of entries, and look-ups in maps that
are filled entry by entry. -/
import SourceAtlas.TextMap

namespace SourceAtlas

theorem pairwise_mergeSort_isLE {α : Type} (order : α → α → Ordering) [Std.TransCmp order]
    (list : List α) :
    (list.mergeSort fun a b => (order a b).isLE).Pairwise fun a b => (order a b).isLE = true := by
  apply List.pairwise_mergeSort
  · intro a b c first second
    exact Std.TransCmp.isLE_trans first second
  · intro a b
    have swap : order b a = (order a b).swap := Std.OrientedCmp.eq_swap
    rw [swap]
    cases order a b <;> rfl

/-- A list taken class by class, when each of its items is in one of the classes. -/
theorem perm_flatMap_filter {α β : Type} [DecidableEq β] {classes : List β}
    (distinct : classes.Nodup) (classOf : α → β) {list : List α}
    (covered : ∀ item ∈ list, classOf item ∈ classes) :
    (classes.flatMap fun kind => list.filter fun item => classOf item = kind).Perm list := by
  induction classes generalizing list with
  | nil =>
      cases list with
      | nil => exact .refl _
      | cons item rest => cases covered item (by simp)
  | cons kind classes ih =>
      obtain ⟨fresh, distinct⟩ := List.nodup_cons.mp distinct
      have others : (classes.flatMap fun kind => list.filter fun item => classOf item = kind) =
          classes.flatMap fun other =>
            (list.filter fun item => !decide (classOf item = kind)).filter fun item =>
            classOf item = other := by
        refine congrArg List.flatten (List.map_congr_left fun other member => ?_)
        rw [List.filter_filter]
        refine List.filter_congr fun item _ => ?_
        by_cases same : classOf item = other
        · have apart : other ≠ kind := fun equal => fresh (equal ▸ member)
          simp [same, apart]
        · simp [same]
      have rest : ∀ item ∈ list.filter fun item => !decide (classOf item = kind),
          classOf item ∈ classes := by
        intro item member
        obtain ⟨inside, apart⟩ := List.mem_filter.mp member
        exact (List.mem_cons.mp (covered item inside)).resolve_left (by simpa using apart)
      rw [List.flatMap_cons, others]
      exact (List.Perm.append_left _ (ih distinct rest)).trans (List.filter_append_perm _ list)

theorem lookup_cons_eq_ite {α : Type} (query key : String) (value : α)
    (entries : List (String × α)) :
    ((key, value) :: entries).lookup query =
      if query = key then some value else entries.lookup query := by
  rw [List.lookup_cons]
  by_cases same : query = key
  · rw [if_pos same, beq_iff_eq.mpr same]
  · rw [if_neg same, beq_false_of_ne same]

theorem lookup_reverse_of_not_mem {α : Type} {entries : List (String × α)} {query : String}
    (missing : query ∉ entries.map Prod.fst) : entries.reverse.lookup query = none := by
  rw [List.lookup_eq_none_iff]
  intro entry member
  have other : query ≠ entry.1 := fun same =>
    missing (same ▸ List.mem_map_of_mem (List.mem_reverse.mp member))
  simpa using other

/-- Entries whose values follow from their keys. -/
theorem lookup_of_values {α : Type} {entries : List (String × α)} {value : String → α}
    (follows : ∀ entry ∈ entries, entry.2 = value entry.1) (query : String) :
    entries.lookup query = if query ∈ entries.map Prod.fst then some (value query) else none := by
  induction entries with
  | nil => rfl
  | cons entry rest ih =>
      rw [lookup_cons_eq_ite, ih fun other member => follows other (by simp [member])]
      by_cases same : query = entry.1
      · simp [same, follows entry (by simp)]
      · simp only [same, if_false, List.map_cons, List.mem_cons, false_or]

namespace TextMap

variable {α β : Type}

/-- Entries with distinct keys never overwrite each other. -/
theorem get?_fill {list : List β} {key : β → String} {value : β → α}
    (distinct : (list.map key).Nodup) (map : TextMap α) (query : String) (found : α) :
    (list.foldl (fun map item => map.insert (key item) (value item)) map)[query]? = some found ↔
      (∃ item ∈ list, key item = query ∧ value item = found) ∨
        (query ∉ list.map key ∧ map[query]? = some found) := by
  induction list generalizing map with
  | nil => simp
  | cons head rest ih =>
      rw [List.map_cons, List.nodup_cons] at distinct
      rw [List.foldl_cons, ih distinct.2, get?_put]
      by_cases same : key head = query
      · subst same
        have fresh : ¬∃ item ∈ rest, key item = key head ∧ value item = found := by
          rintro ⟨item, member, equal, _⟩
          exact distinct.1 (equal ▸ List.mem_map_of_mem member)
        simp [distinct.1, fresh]
      · simp [same, Ne.symm same]

theorem get?_fill_empty {list : List β} {key : β → String} {value : β → α}
    (distinct : (list.map key).Nodup) (query : String) (found : α) :
    (list.foldl (fun map item => map.insert (key item) (value item)) (∅ : TextMap α))[query]? =
      some found ↔
      ∃ item ∈ list, key item = query ∧ value item = found := by
  rw [get?_fill distinct]
  simp

/-- Whatever is stored, the keys are those that were there and those of the entries. -/
theorem mem_fill_iff {list : List β} {key : β → String} {value : TextMap α → β → α}
    {map : TextMap α} {query : String} :
    query ∈ list.foldl (fun map item => map.insert (key item) (value map item)) map ↔
      query ∈ map ∨ ∃ item ∈ list, key item = query := by
  induction list generalizing map with
  | nil => simp
  | cons head rest ih =>
      rw [List.foldl_cons, ih, Std.ExtTreeMap.mem_insert, Std.compare_eq_iff_eq]
      constructor
      · rintro ((same | old) | ⟨item, member, same⟩)
        · exact .inr ⟨head, by simp, same⟩
        · exact .inl old
        · exact .inr ⟨item, by simp [member], same⟩
      · rintro (old | ⟨item, member, same⟩)
        · exact .inl (.inr old)
        · rcases List.mem_cons.mp member with rfl | later
          · exact .inl (.inl same)
          · exact .inr ⟨item, later, same⟩

theorem nodup_keys_toList (map : TextMap α) : (map.toList.map Prod.fst).Nodup := by
  rw [Std.ExtTreeMap.map_fst_toList_eq_keys]
  exact map.nodup_keys

theorem values_eq_map_toList (map : TextMap α) : map.values = map.toList.map Prod.snd := by
  have folded : map.values = map.foldr (fun _ value values => value :: values) [] := rfl
  rw [folded, Std.ExtTreeMap.foldr_eq_foldr_toList]
  induction map.toList with
  | nil => rfl
  | cons entry rest ih => rw [List.foldr_cons, ih, List.map_cons]

@[simp] theorem mem_values {map : TextMap α} {value : α} :
    value ∈ map.values ↔ ∃ key : String, map[key]? = some value := by
  rw [values_eq_map_toList, List.mem_map]
  constructor
  · rintro ⟨⟨key, stored⟩, member, rfl⟩
    exact ⟨key, Std.ExtTreeMap.mem_toList_iff_getElem?_eq_some.mp member⟩
  · rintro ⟨key, stored⟩
    exact ⟨(key, value), Std.ExtTreeMap.mem_toList_iff_getElem?_eq_some.mpr stored, rfl⟩

/-- Values that are stored under keys of their own are listed once. -/
theorem nodup_map_values {map : TextMap α} {key : α → String}
    (keyed : ∀ query value, map[query]? = some value → key value = query) :
    (map.values.map key).Nodup := by
  have keys : map.values.map key = map.toList.map Prod.fst := by
    rw [values_eq_map_toList, List.map_map]
    refine List.map_congr_left fun entry member => ?_
    exact keyed entry.1 entry.2 (Std.ExtTreeMap.mem_toList_iff_getElem?_eq_some.mp member)
  rw [keys]
  exact nodup_keys_toList map

/-- A map is made of its entries. -/
theorem fill_toList (map : TextMap α) :
    map.toList.foldl (fun filled entry => filled.insert entry.1 entry.2) ∅ = map := by
  refine Std.ExtTreeMap.ext_getElem? fun query => Option.ext fun found => ?_
  refine (get?_fill_empty (nodup_keys_toList map) query found).trans ⟨?_, ?_⟩
  · rintro ⟨⟨key, value⟩, member, rfl, rfl⟩
    exact Std.ExtTreeMap.mem_toList_iff_getElem?_eq_some.mp member
  · intro stored
    exact ⟨(query, found), Std.ExtTreeMap.mem_toList_iff_getElem?_eq_some.mpr stored, rfl, rfl⟩

/-- Of several entries with one key the last stays. -/
theorem get?_write (entries : List (String × α)) (map : TextMap α) (query : String) :
    (entries.foldl (fun map entry => map.insert entry.1 entry.2) map)[query]? =
      (entries.reverse.lookup query).or map[query]? := by
  induction entries generalizing map with
  | nil => rfl
  | cons head rest ih =>
      rw [List.foldl_cons, ih, get?_put, List.reverse_cons, List.lookup_append, Option.or_assoc,
        lookup_cons_eq_ite]
      by_cases same : head.1 = query
      · simp [same]
      · simp [same, Ne.symm same]

/-- Each key holds what its items add up to, one after the other. -/
theorem get?_accumulate (key : β → String) (add : α → β → α) (zero : α) (items : List β)
    (query : String) :
    (items.foldl (fun map item => map.insert (key item) (add (map.getD (key item) zero) item))
      (∅ : TextMap α))[query]? =
      if query ∈ items.map key then
        some ((items.filter fun item => key item = query).foldl add zero)
      else none := by
  have general : ∀ (rest : List β) (map : TextMap α),
      (rest.foldl (fun map item => map.insert (key item) (add (map.getD (key item) zero) item))
        map)[query]? =
        if query ∈ rest.map key then
          some ((rest.filter fun item => key item = query).foldl add (map[query]?.getD zero))
        else map[query]? := by
    intro rest
    induction rest with
    | nil => simp
    | cons item rest ih =>
        intro map
        rw [List.foldl_cons, ih, get?_put, Std.ExtTreeMap.getD_eq_getD_getElem?]
        by_cases same : key item = query
        · subst same
          by_cases later : key item ∈ rest.map key
          · simp [later]
          · have empty : rest.filter (fun other => key other = key item) = [] := by
              refine List.filter_eq_nil_iff.mpr fun other member equal => later ?_
              exact List.mem_map.mpr ⟨other, member, by simpa using equal⟩
            simp [later, empty]
        · simp [same, Ne.symm same]
  have start := general items ∅
  simp only [Std.ExtTreeMap.getElem?_empty, Option.getD_none] at start
  exact start

/-- The group of a key holds all values with that key, in their order. -/
@[simp] theorem get?_groupBy (key : α → String) (values : List α) (query : String) :
    (groupBy key values)[query]? =
      if query ∈ values.map key then some (values.filter fun value => key value = query)
      else none := by
  have joined (list : List α) : list.foldl (fun group value => group ++ [value]) [] = list := by
    rw [List.foldl_append_eq_append, List.nil_append, ← List.flatMap_def, List.flatMap_singleton']
  rw [groupBy, get?_accumulate key fun group value => group ++ [value], joined]

@[simp] theorem get?_tally (items : List String) (query : String) :
    (tally items)[query]? = if query ∈ items then some (items.count query) else none := by
  have counted (list : List String) (start : Nat) :
      list.foldl (fun count _ => count + 1) start = start + list.length := by
    induction list generalizing start with
    | nil => rfl
    | cons item rest ih =>
        rw [List.foldl_cons, ih, List.length_cons]
        omega
  have total := get?_accumulate (fun item => item) (fun count _ => count + 1) 0 items query
  rw [counted, Nat.zero_add, List.map_id_fun', id_eq, ← List.countP_eq_length_filter] at total
  exact total

end TextMap

@[simp] theorem TextSet.mem_foldl_insert {ids : List String} {set : TextSet} {id : String} :
    id ∈ ids.foldl (fun set id => set.insert id) set ↔ id ∈ set ∨ id ∈ ids := by
  induction ids generalizing set with
  | nil => simp
  | cons first rest ih =>
      rw [List.foldl_cons, ih, Std.ExtTreeSet.mem_insert, Std.compare_eq_iff_eq, List.mem_cons,
        eq_comm, or_assoc, or_left_comm]

end SourceAtlas
