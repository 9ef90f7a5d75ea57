/- Every text survives its written form: the scanner of literals stops at the closing quote and
nowhere before, and what stands before it reads as the text. -/
import SourceAtlas.Json.Parser

namespace SourceAtlas.Json

theorem hexUnit?_hexDigit :
    ∀ n < 0x20, hexUnit? '0' '0' (hexDigit (n / 16)) (hexDigit (n % 16)) = some n := by
  decide

/-- The three forms in which a character is written. -/
theorem escapeChar_cases (c : Char) :
    (∃ e, escapeChar c = ['\\', e] ∧ e ≠ 'u' ∧ simpleEscape? e = some c) ∨
    (∃ a b, escapeChar c = ['\\', 'u', '0', '0', a, b] ∧ hexUnit? '0' '0' a b = some c.toNat ∧
      c.toNat < 0x20) ∨
    (escapeChar c = [c] ∧ c ≠ '"' ∧ c ≠ '\\' ∧ ¬c.toNat < 0x20) := by
  unfold escapeChar
  split
  case h_8 quote backslash _ _ _ _ _ =>
    by_cases control : c.toNat < 0x20
    · rw [if_pos control]
      exact .inr (.inl ⟨_, _, rfl, hexUnit?_hexDigit _ control, control⟩)
    · rw [if_neg control]
      exact .inr (.inr ⟨rfl, quote, backslash, control⟩)
  all_goals exact .inl ⟨_, rfl, by decide, rfl⟩

/-- The scanner takes a written character as a whole. -/
theorem scanString?_escapeChar (c : Char) (done rest : List Char) :
    scanString? done (escapeChar c ++ rest) =
      scanString? ((escapeChar c).reverse ++ done) rest := by
  rcases escapeChar_cases c with ⟨e, written, plain, simple⟩ | ⟨a, b, written, hex, _⟩ |
    ⟨written, quote, backslash, control⟩
  · simp [written, scanString?, plain, simple]
  · simp [written, scanString?, hex]
  · simp [written, scanString?, backslash, control]

theorem scanString?_written (text done rest : List Char) :
    scanString? done (text.flatMap escapeChar ++ '"' :: rest) =
      some (String.ofList (done.reverse ++ text.flatMap escapeChar), rest) := by
  induction text generalizing done with
  | nil => simp [scanString?]
  | cons c text ih =>
      rw [List.flatMap_cons, List.append_assoc, scanString?_escapeChar, ih]
      simp

/-- A written text is scanned up to its closing quote. -/
@[simp] theorem scanString?_escape (text : String) (rest : List Char) :
    scanString? [] ((escape text).toList ++ '"' :: rest) = some (escape text, rest) := by
  rw [escape, String.toList_ofList, scanString?_written]
  rfl

/-- The unit by which a character is read back: control characters without a short escape are
written by their code. -/
theorem unitsOf?_escapeChar (c : Char) :
    ∃ unit, (∀ done rest, unitsOf? done (escapeChar c ++ rest) = unitsOf? (unit :: done) rest) ∧
      ∀ done rest, textOfUnits? done (unit :: rest) = textOfUnits? (c :: done) rest := by
  rcases escapeChar_cases c with ⟨e, written, plain, simple⟩ | ⟨a, b, written, hex, control⟩ |
    ⟨written, quote, backslash, control⟩
  · refine ⟨.char c, fun done rest => ?_, fun done rest => rfl⟩
    simp [written, unitsOf?, plain, simple]
  · refine ⟨.unit c.toNat, fun done rest => ?_, fun done rest => ?_⟩
    · simp [written, unitsOf?, hex]
    · have low : c.toNat < 0xD800 ∨ 0xDFFF < c.toNat := by omega
      rw [textOfUnits?.eq_def]
      simp only [if_pos low, Char.ofNat_toNat]
  · refine ⟨.char c, fun done rest => ?_, fun done rest => rfl⟩
    simp [written, unitsOf?, quote, backslash, control]

theorem textOfUnits?_written (text done : List Char) (units : List Unit16) :
    ∃ read, unitsOf? units (text.flatMap escapeChar) = some (units.reverse ++ read) ∧
      textOfUnits? done read = some (done.reverse ++ text) := by
  induction text generalizing done units with
  | nil => exact ⟨[], by simp [unitsOf?], by simp [textOfUnits?]⟩
  | cons c text ih =>
      obtain ⟨unit, scans, reads⟩ := unitsOf?_escapeChar c
      obtain ⟨read, scanned, back⟩ := ih (c :: done) (unit :: units)
      refine ⟨unit :: read, ?_, ?_⟩
      · rw [List.flatMap_cons, scans, scanned]
        simp
      · rw [reads, back]
        simp

/-- Writing a text loses nothing. -/
@[simp] theorem unescape?_escape (text : String) : unescape? (escape text) = some text := by
  obtain ⟨read, scanned, back⟩ := textOfUnits?_written text.toList [] []
  rw [List.reverse_nil, List.nil_append] at scanned back
  simp [unescape?, escape, scanned, back]

end SourceAtlas.Json
