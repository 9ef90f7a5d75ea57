/- The reader inverts the writer: a value in written form is read back from its text, in either
layout and with any text behind it that does not go on with it. -/
import SourceAtlas.Json.Printer
import SourceAtlas.Proofs.Json.Literal
import SourceAtlas.Proofs.Json.Numeral

namespace SourceAtlas.Json

/-- A value whose numbers are number tokens, and whose strings and keys are in written form. -/
inductive Canonical : Json → Prop
  | null : Canonical .null
  | bool (value : Bool) : Canonical (.bool value)
  | number {token : String} : Numeral token.toList → Canonical (.number token)
  | string (text : String) : Canonical (.string (escape text))
  | array {items : List Json} : (∀ item ∈ items, Canonical item) → Canonical (.array items)
  | object {fields : List (String × Json)} : (∀ field ∈ fields, ∃ key, field.1 = escape key) →
      (∀ field ∈ fields, Canonical field.2) → Canonical (.object fields)

theorem skipSpace_of_head {c : Char} (rest : List Char) (other : isSpace c = false) :
    skipSpace (c :: rest) = c :: rest := by
  simp [skipSpace, other]

@[simp] theorem skipSpace_break (layout : Layout) (depth : Nat) (rest : List Char) :
    skipSpace (layout.break depth ++ rest) = skipSpace rest := by
  cases layout with
  | line => rfl
  | block =>
      have spaces : ∀ c ∈ Layout.break .block depth, isSpace c = true := by
        intro c member
        simp only [Layout.break, List.mem_cons, List.mem_replicate] at member
        rcases member with rfl | ⟨_, rfl⟩ <;> rfl
      exact List.dropWhile_append_of_pos spaces

theorem endsNumber_break (layout : Layout) (depth : Nat) {c : Char} {rest : List Char}
    (close : endsNumber (c :: rest) = true) :
    endsNumber (layout.break depth ++ c :: rest) = true := by
  cases layout with
  | line => exact close
  | block => rfl

/-- What reading the written form of a value has to do. The length of the form bounds the depth of
the reading. -/
structure ReadsBack (layout : Layout) (json : Json) : Prop where
  head : ∀ depth, ∃ c tail, writeChars layout depth json = c :: tail ∧ isSpace c = false ∧ c ≠ ']'
  value : ∀ {depth fuel : Nat} {rest : List Char}, endsNumber rest = true →
    (writeChars layout depth json).length ≤ fuel →
    value? (fuel + 1) (writeChars layout depth json ++ rest) = some (json, rest)

variable {layout : Layout}

theorem ReadsBack.skipSpace {json : Json} (back : ReadsBack layout json) (depth : Nat)
    (rest : List Char) :
    skipSpace (writeChars layout depth json ++ rest) = writeChars layout depth json ++ rest := by
  obtain ⟨c, tail, written, other, _⟩ := back.head depth
  rw [written]
  exact skipSpace_of_head _ other

theorem ReadsBack.value_skipSpace {json : Json} (back : ReadsBack layout json) {depth fuel : Nat}
    {rest : List Char} (stop : endsNumber rest = true)
    (enough : (writeChars layout depth json).length ≤ fuel) :
    value? (fuel + 1) (Json.skipSpace (writeChars layout depth json ++ rest)) =
      some (json, rest) := by
  rw [back.skipSpace]
  exact back.value stop enough

theorem endsNumber_writeItems (layout : Layout) (depth outer : Nat) (items : List Json)
    (rest : List Char) :
    endsNumber (writeItems layout depth items ++ (layout.break outer ++ ']' :: rest)) = true := by
  cases items with
  | nil => exact endsNumber_break layout outer rfl
  | cons item items => rfl

theorem endsNumber_writeFields (layout : Layout) (depth outer : Nat) (fields : List (String × Json))
    (rest : List Char) :
    endsNumber (writeFields layout depth fields ++ (layout.break outer ++ '\x7d' :: rest)) =
      true := by
  cases fields with
  | nil => exact endsNumber_break layout outer rfl
  | cons field fields => rfl

theorem skipSpace_writeItems (depth : Nat) (item : Json) (items : List Json) (rest : List Char) :
    skipSpace (writeItems layout depth (item :: items) ++ rest) =
      ',' :: (layout.break depth ++
        (writeChars layout depth item ++ (writeItems layout depth items ++ rest))) := by
  simp only [writeItems, List.cons_append, List.append_assoc]
  exact skipSpace_of_head _ rfl

theorem skipSpace_writeFields (depth : Nat) (field : String × Json) (fields : List (String × Json))
    (rest : List Char) :
    skipSpace (writeFields layout depth (field :: fields) ++ rest) =
      ',' :: (layout.break depth ++ (quoted field.1 ++ (layout.colon ++
        (writeChars layout depth field.2 ++ (writeFields layout depth fields ++ rest))))) := by
  simp only [writeFields, List.cons_append, List.append_assoc]
  exact skipSpace_of_head _ rfl

/-- No blank and no bracket starts a number. -/
theorem plain_of_numeral_head {c : Char} (head : c = '-' ∨ isDigit c = true) :
    isSpace c = false ∧ c ≠ ']' := by
  constructor
  · cases space : isSpace c with
    | false => rfl
    | true =>
        simp only [isSpace, Bool.or_eq_true, beq_iff_eq] at space
        rcases space with ((rfl | rfl) | rfl) | rfl <;> exact absurd head (by decide)
  · rintro rfl
    exact absurd head (by decide)

section Steps

variable {fuel : Nat} {input after next rest : List Char}

theorem items?_last {item : Json} (first : value? fuel input = some (item, after))
    (close : skipSpace after = ']' :: rest) : items? (fuel + 1) input = some ([item], rest) := by
  simp [items?, first, close]

theorem items?_more {item : Json} {items : List Json}
    (first : value? fuel input = some (item, after)) (comma : skipSpace after = ',' :: next)
    (others : items? fuel (skipSpace next) = some (items, rest)) :
    items? (fuel + 1) input = some (item :: items, rest) := by
  simp [items?, first, comma, others]

/-- The part of a field before its value. -/
theorem scanString?_key (layout : Layout) (key : String) (rest : List Char) :
    ∃ blanks, scanString? [] ((escape key).toList ++ '"' :: (layout.colon ++ rest)) =
      some (escape key, ':' :: blanks) ∧
      skipSpace (':' :: blanks) = ':' :: blanks ∧ skipSpace blanks = skipSpace rest := by
  rw [scanString?_escape]
  cases layout with
  | line => exact ⟨rest, rfl, skipSpace_of_head _ rfl, rfl⟩
  | block => exact ⟨' ' :: rest, rfl, skipSpace_of_head _ rfl, rfl⟩

theorem fields?_last {layout : Layout} {field : String × Json} (keyed : ∃ key, field.1 = escape key)
    (first : value? fuel (skipSpace input) = some (field.2, after))
    (close : skipSpace after = '\x7d' :: rest) :
    fields? (fuel + 1) (quoted field.1 ++ (layout.colon ++ input)) = some ([field], rest) := by
  obtain ⟨_, value⟩ := field
  obtain ⟨key, rfl⟩ := keyed
  obtain ⟨blanks, scanned, colon, skipped⟩ := scanString?_key layout key input
  simp [fields?, quoted, scanned, colon, skipped, first, close]

theorem fields?_more {layout : Layout} {field : String × Json} {fields : List (String × Json)}
    (keyed : ∃ key, field.1 = escape key)
    (first : value? fuel (skipSpace input) = some (field.2, after))
    (comma : skipSpace after = ',' :: next)
    (others : fields? fuel (skipSpace next) = some (fields, rest)) :
    fields? (fuel + 1) (quoted field.1 ++ (layout.colon ++ input)) =
      some (field :: fields, rest) := by
  obtain ⟨_, value⟩ := field
  obtain ⟨key, rfl⟩ := keyed
  obtain ⟨blanks, scanned, colon, skipped⟩ := scanString?_key layout key input
  simp [fields?, quoted, scanned, colon, skipped, first, comma, others]

theorem value?_items {items : List Json} (start : skipSpace input = next)
    (other : next.head? ≠ some ']') (read : items? fuel next = some (items, rest)) :
    value? (fuel + 1) ('[' :: input) = some (.array items, rest) := by
  cases next with
  | nil => simp [value?, start, read]
  | cons c next =>
      have plain : c ≠ ']' := fun same => other (congrArg some same)
      simp [value?, start, plain, read]

theorem value?_fields {fields : List (String × Json)} (start : skipSpace input = next)
    (other : next.head? ≠ some '\x7d') (read : fields? fuel next = some (fields, rest)) :
    value? (fuel + 1) ('\x7b' :: input) = some (.object fields, rest) := by
  cases next with
  | nil => simp [value?, start, read]
  | cons c next =>
      have plain : c ≠ '\x7d' := fun same => other (congrArg some same)
      simp [value?, start, plain, read]

/-- No other value starts like a number. -/
theorem value?_numeral (fuel : Nat) {token : List Char} (numeral : Numeral token)
    (stop : endsNumber rest = true) :
    value? (fuel + 1) (token ++ rest) = some (.number (String.ofList token), rest) := by
  have scanned := numeral.scan stop
  obtain ⟨c, tail, rfl, head⟩ := numeral.head
  rw [value?, scanned]
  · rfl
  all_goals
    intro _ same
    obtain ⟨rfl, _⟩ := List.cons.inj same
    exact absurd head (by decide)

end Steps

theorem items?_written {depth outer fuel : Nat} {item : Json} {items : List Json} {rest : List Char}
    (back : ∀ each ∈ item :: items, ReadsBack layout each)
    (enough : (writeChars layout depth item).length + (writeItems layout depth items).length + 1 <
      fuel) :
    items? fuel (writeChars layout depth item ++
      (writeItems layout depth items ++ (layout.break outer ++ ']' :: rest))) =
        some (item :: items, rest) := by
  -- Each item takes one unit of fuel and at least the comma before it of the text.
  induction items generalizing item fuel with
  | nil =>
      obtain ⟨fuel, rfl⟩ := Nat.exists_eq_add_of_le' (show 2 ≤ fuel by omega)
      refine items?_last ((back item (by simp)).value
        (endsNumber_writeItems layout depth outer [] rest) (by omega)) ?_
      rw [writeItems, List.nil_append, skipSpace_break]
      exact skipSpace_of_head rest rfl
  | cons next items ih =>
      obtain ⟨fuel, rfl⟩ := Nat.exists_eq_add_of_le' (show 2 ≤ fuel by omega)
      refine items?_more ((back item (by simp)).value
        (endsNumber_writeItems layout depth outer _ rest) (by omega))
        (skipSpace_writeItems depth next items _) ?_
      rw [skipSpace_break, (back next (by simp)).skipSpace]
      refine ih (fun each member => back each (List.mem_cons_of_mem _ member)) ?_
      simp only [writeItems, List.length_append, List.length_cons] at enough
      omega

theorem fields?_written {depth outer fuel : Nat} {field : String × Json}
    {fields : List (String × Json)} {rest : List Char}
    (keys : ∀ each ∈ field :: fields, ∃ key, each.1 = escape key)
    (back : ∀ each ∈ field :: fields, ReadsBack layout each.2)
    (enough : (writeChars layout depth field.2).length + (writeFields layout depth fields).length +
      1 < fuel) :
    fields? fuel (quoted field.1 ++ (layout.colon ++ (writeChars layout depth field.2 ++
      (writeFields layout depth fields ++ (layout.break outer ++ '\x7d' :: rest))))) =
        some (field :: fields, rest) := by
  induction fields generalizing field fuel with
  | nil =>
      obtain ⟨fuel, rfl⟩ := Nat.exists_eq_add_of_le' (show 2 ≤ fuel by omega)
      refine fields?_last (keys field (by simp)) ((back field (by simp)).value_skipSpace
        (endsNumber_writeFields layout depth outer [] rest) (by omega)) ?_
      rw [writeFields, List.nil_append, skipSpace_break]
      exact skipSpace_of_head rest rfl
  | cons next fields ih =>
      obtain ⟨fuel, rfl⟩ := Nat.exists_eq_add_of_le' (show 2 ≤ fuel by omega)
      refine fields?_more (keys field (by simp)) ((back field (by simp)).value_skipSpace
        (endsNumber_writeFields layout depth outer _ rest) (by omega))
        (skipSpace_writeFields depth next fields _) ?_
      rw [skipSpace_break, quoted]
      refine ih (fun each member => keys each (List.mem_cons_of_mem _ member))
        (fun each member => back each (List.mem_cons_of_mem _ member)) ?_
      simp only [writeFields, List.length_append, List.length_cons] at enough
      omega

/-- A value in written form is read back from its text. -/
theorem Canonical.readsBack {json : Json} (canonical : Canonical json) (layout : Layout) :
    ReadsBack layout json := by
  induction canonical with
  | null =>
      refine ⟨fun _ => ⟨_, _, rfl, rfl, by decide⟩, fun _ _ => ?_⟩
      simp [writeChars, value?]
  | bool value =>
      cases value <;>
      · refine ⟨fun _ => ⟨_, _, rfl, rfl, by decide⟩, fun _ _ => ?_⟩
        simp [writeChars, value?]
  | @number token numeral =>
      refine ⟨fun _ => ?_, fun {_ fuel _} stop _ => ?_⟩
      · obtain ⟨c, tail, same, head⟩ := numeral.head
        exact ⟨c, tail, same, plain_of_numeral_head head⟩
      · have read := value?_numeral fuel numeral stop
        rwa [String.ofList_toList] at read
  | string text =>
      refine ⟨fun _ => ⟨_, _, rfl, rfl, by decide⟩, fun _ _ => ?_⟩
      simp [writeChars, quoted, value?]
  | @array items canonical back =>
      refine ⟨fun _ => by cases items <;> exact ⟨_, _, rfl, rfl, by decide⟩,
        fun {depth _ rest} _ enough => ?_⟩
      cases items with
      | nil =>
          have empty := skipSpace_of_head rest (show isSpace ']' = false from rfl)
          simp [writeChars, value?, empty]
      | cons item items =>
          have first := back item (by simp)
          simp only [writeChars, List.length_append, List.length_cons, List.cons_append,
            List.append_assoc, List.nil_append] at enough ⊢
          refine value?_items ((skipSpace_break ..).trans (first.skipSpace ..)) ?_
            (items?_written back (by omega))
          obtain ⟨c, tail, written, _, other⟩ := first.head (depth + 1)
          rw [written]
          exact fun same => other (Option.some.inj same)
  | @object fields keys canonical back =>
      refine ⟨fun _ => by cases fields <;> exact ⟨_, _, rfl, rfl, by decide⟩,
        fun {depth _ rest} _ enough => ?_⟩
      cases fields with
      | nil =>
          have empty := skipSpace_of_head rest (show isSpace '\x7d' = false from rfl)
          simp [writeChars, value?, empty]
      | cons field fields =>
          simp only [writeChars, List.length_append, List.length_cons, List.cons_append,
            List.append_assoc, List.nil_append] at enough ⊢
          have start : ∀ after, skipSpace (quoted field.1 ++ after) = quoted field.1 ++ after :=
            fun after => skipSpace_of_head _ rfl
          exact value?_fields ((skipSpace_break ..).trans (start _)) (by simp [quoted])
            (fields?_written keys back (by omega))

/-- The reader inverts the writer. -/
theorem Canonical.parse?_write {json : Json} (canonical : Canonical json) (layout : Layout) :
    parse? (write layout json) = some json := by
  have back := canonical.readsBack layout
  have start := back.skipSpace 0 []
  have read : value? ((writeChars layout 0 json).length + 1) (writeChars layout 0 json ++ []) =
      some (json, []) :=
    back.value rfl (Nat.le_refl _)
  rw [List.append_nil] at start read
  rw [parse?, write, String.toList_ofList, start, read]
  rfl

end SourceAtlas.Json
