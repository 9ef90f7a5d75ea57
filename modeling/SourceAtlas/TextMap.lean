/- Finite maps and sets with text keys. Entries are listed in code point order of their keys,
and two maps with the same look-ups are equal. -/
import Std.Data.ExtTreeMap
import Std.Data.ExtTreeSet

namespace SourceAtlas

abbrev TextMap (α : Type) : Type := Std.ExtTreeMap String α compare

abbrev TextSet : Type := Std.ExtTreeSet String compare

namespace TextMap

variable {α : Type}

/-- Look-up after an insertion: the new value at its key, the old ones elsewhere. -/
@[simp] theorem get?_put (map : TextMap α) (key query : String) (value : α) :
    (map.insert key value)[query]? = if key = query then some value else map[query]? := by
  rw [Std.ExtTreeMap.getElem?_insert]
  simp only [Std.compare_eq_iff_eq]

/-- The map that groups values by a key computed from each, in their order. -/
def groupBy (key : α → String) (values : List α) : TextMap (List α) :=
  values.foldl (fun map value => map.insert (key value) (map.getD (key value) [] ++ [value])) ∅

/-- How often each text occurs in a list. -/
def tally (items : List String) : TextMap Nat :=
  items.foldl (fun map item => map.insert item (map.getD item 0 + 1)) ∅

end TextMap

end SourceAtlas
