/- Number tokens: the grammar that the scanner accepts, and the texts of natural numbers in it. -/
import Mathlib.Data.List.TakeDrop
import SourceAtlas.Json.Decode
import SourceAtlas.Json.Parser

namespace SourceAtlas.Json

/-- One digit or more. -/
structure IsDigits (text : List Char) : Prop where
  nonempty : text ≠ []
  digit : ∀ c ∈ text, isDigit c = true

/-- The digits before the point: zero stands first only when it stands alone. -/
structure IsWhole (text : List Char) : Prop extends IsDigits text where
  leading : text.head? = some '0' → text.length = 1

def IsFraction (text : List Char) : Prop :=
  text = [] ∨ ∃ digits, IsDigits digits ∧ text = '.' :: digits

def IsExponent (text : List Char) : Prop :=
  text = [] ∨ ∃ sign digits, sign ∈ [[], ['+'], ['-']] ∧ IsDigits digits ∧
    text = 'e' :: (sign ++ digits)

/-- The tokens of numbers without a sign. -/
inductive Magnitude : List Char → Prop
  | parts {whole fraction exponent : List Char} :
      IsWhole whole → IsFraction fraction → IsExponent exponent →
      Magnitude (whole ++ (fraction ++ exponent))

/-- The tokens of numbers. -/
inductive Numeral : List Char → Prop
  | plain {text : List Char} : Magnitude text → Numeral text
  | negative {text : List Char} : Magnitude text → Numeral ('-' :: text)

/-- A text that does not go on with a number. -/
def endsNumber (rest : List Char) : Bool :=
  rest.head?.all fun c => !(isDigit c || c == '.' || c == 'e' || c == 'E')

theorem head_all_mono {p q : Char → Bool} {rest : List Char} (weaker : ∀ c, p c = true → q c = true)
    (stop : rest.head?.all p = true) : rest.head?.all q = true := by
  cases rest with
  | nil => rfl
  | cons c rest => exact weaker c stop

theorem IsDigits.of_subset {text part : List Char} (digits : IsDigits text) (nonempty : part ≠ [])
    (subset : ∀ c ∈ part, c ∈ text ∨ c = '0') : IsDigits part := by
  refine ⟨nonempty, fun c member => ?_⟩
  rcases subset c member with inside | rfl
  · exact digits.digit c inside
  · rfl

theorem IsDigits.scan {digits rest : List Char} (run : IsDigits digits)
    (stop : rest.head?.all (fun c => !isDigit c) = true) :
    scanDigits? (digits ++ rest) = some (digits, rest) := by
  have taken : rest.takeWhile isDigit = [] := by
    cases rest with
    | nil => rfl
    | cons c rest => simp_all
  have left : rest.dropWhile isDigit = rest := by
    cases rest with
    | nil => rfl
    | cons c rest => simp_all
  have split : (digits ++ rest).span isDigit = (digits, rest) := by
    rw [List.span_eq_takeWhile_dropWhile, List.takeWhile_append_of_pos run.digit,
      List.dropWhile_append_of_pos run.digit, taken, left, List.append_nil]
  rw [scanDigits?, split]
  cases digits with
  | nil => exact absurd rfl run.nonempty
  | cons c digits => rfl

theorem IsWhole.scan {whole rest : List Char} (run : IsWhole whole)
    (stop : rest.head?.all (fun c => !isDigit c) = true) :
    scanInteger? (whole ++ rest) = some (whole, rest) := by
  rw [scanInteger?, run.toIsDigits.scan stop]
  split
  · next zero =>
      obtain ⟨rfl, rfl⟩ := Prod.mk.inj (Option.some.inj zero)
      have alone := run.leading rfl
      simp at alone
  · rfl

theorem IsFraction.scan {fraction rest : List Char} (read : IsFraction fraction)
    (stop : rest.head?.all (fun c => !(isDigit c || c == '.')) = true) :
    scanFraction? (fraction ++ rest) = some (fraction, rest) := by
  rcases read with rfl | ⟨digits, run, rfl⟩
  · cases rest with
    | nil => rfl
    | cons c rest =>
        have other : c ≠ '.' := by simp_all
        simp [scanFraction?, other]
  · have last := run.scan (head_all_mono (by simp +contextual) stop)
    simp [scanFraction?, last]

theorem IsExponent.scan {exponent rest : List Char} (read : IsExponent exponent)
    (stop : endsNumber rest = true) : scanExponent? (exponent ++ rest) = some (exponent, rest) := by
  rcases read with rfl | ⟨sign, digits, signed, run, rfl⟩
  · cases rest with
    | nil => rfl
    | cons c rest =>
        have other : ¬(c = 'e' ∨ c = 'E') := by simp_all [endsNumber]
        simp [scanExponent?, other]
  · have last := run.scan (head_all_mono (by simp +contextual) stop)
    -- A digit is no sign, so the sign that is scanned is the one that was written.
    have sign_scan : scanSign (sign ++ (digits ++ rest)) = (sign, digits ++ rest) := by
      simp only [List.mem_cons, List.not_mem_nil, or_false] at signed
      rcases signed with rfl | rfl | rfl
      · cases digits with
        | nil => exact absurd rfl run.nonempty
        | cons c digits =>
            have digit := run.digit c (by simp)
            have plus : c ≠ '+' := by rintro rfl; exact absurd digit (by decide)
            have minus : c ≠ '-' := by rintro rfl; exact absurd digit (by decide)
            simp [scanSign, plus, minus]
      · rfl
      · rfl
    simp [scanExponent?, sign_scan, last]

theorem IsExponent.head {exponent rest : List Char} (read : IsExponent exponent)
    (stop : endsNumber rest = true) :
    (exponent ++ rest).head?.all (fun c => !(isDigit c || c == '.')) = true := by
  rcases read with rfl | ⟨sign, digits, _, _, rfl⟩
  · exact head_all_mono (by simp +contextual) stop
  · rfl

theorem IsFraction.head {fraction rest : List Char} (read : IsFraction fraction)
    (stop : rest.head?.all (fun c => !(isDigit c || c == '.')) = true) :
    (fraction ++ rest).head?.all (fun c => !isDigit c) = true := by
  rcases read with rfl | ⟨digits, _, rfl⟩
  · exact head_all_mono (by simp +contextual) stop
  · rfl

theorem Magnitude.head {text : List Char} (magnitude : Magnitude text) :
    ∃ c rest, text = c :: rest ∧ isDigit c = true := by
  obtain @⟨whole, fraction, exponent, digits, _, _⟩ := magnitude
  cases whole with
  | nil => exact absurd rfl digits.nonempty
  | cons c whole => exact ⟨c, _, rfl, digits.digit c (by simp)⟩

theorem Numeral.head {token : List Char} (numeral : Numeral token) :
    ∃ c rest, token = c :: rest ∧ (c = '-' ∨ isDigit c = true) := by
  cases numeral with
  | plain magnitude =>
      obtain ⟨c, rest, same, digit⟩ := magnitude.head
      exact ⟨c, rest, same, .inr digit⟩
  | negative magnitude => exact ⟨'-', _, rfl, .inl rfl⟩

/-- What is scanned behind a sign. -/
theorem Magnitude.scan {text rest : List Char} (magnitude : Magnitude text)
    (stop : endsNumber rest = true) :
    ∃ whole fraction exponent after second,
      scanInteger? (text ++ rest) = some (whole, after) ∧
      scanFraction? after = some (fraction, second) ∧
      scanExponent? second = some (exponent, rest) ∧ text = whole ++ fraction ++ exponent := by
  obtain @⟨whole, fraction, exponent, digits, point, power⟩ := magnitude
  have behind := power.head stop
  refine ⟨whole, fraction, exponent, fraction ++ (exponent ++ rest), exponent ++ rest, ?_,
    point.scan behind, power.scan stop, ?_⟩
  · rw [List.append_assoc, List.append_assoc]
    exact digits.scan (point.head behind)
  · rw [List.append_assoc]

/-- A number is scanned as a whole when the text behind it does not go on with it. -/
theorem Numeral.scan {token rest : List Char} (numeral : Numeral token)
    (stop : endsNumber rest = true) :
    scanNumber? (token ++ rest) = some (String.ofList token, rest) := by
  cases numeral with
  | plain magnitude =>
      obtain ⟨c, tail, rfl, digit⟩ := magnitude.head
      obtain ⟨whole, fraction, exponent, after, second, first, middle, last, same⟩ :=
        magnitude.scan stop
      have minus : c ≠ '-' := by
        rintro rfl
        exact absurd digit (by decide)
      rw [List.cons_append] at first
      have scanned : scanNumber? (c :: (tail ++ rest)) =
          some (String.ofList (whole ++ fraction ++ exponent), rest) := by
        simp [scanNumber?, minus, first, middle, last]
      rwa [← same] at scanned
  | @negative text magnitude =>
      obtain ⟨whole, fraction, exponent, after, second, first, middle, last, same⟩ :=
        magnitude.scan stop
      have scanned : scanNumber? ('-' :: (text ++ rest)) =
          some (String.ofList ('-' :: (whole ++ fraction ++ exponent)), rest) := by
        simp [scanNumber?, first, middle, last]
      rwa [← same] at scanned

theorem isDigits_toDigits (n : Nat) : IsDigits (Nat.toDigits 10 n) where
  nonempty := Nat.toDigits_ne_nil
  digit c member := by
    have digit := Nat.isDigit_of_mem_toDigits (by decide) (by decide) member
    simpa [isDigit, Char.isDigit, Char.le_def] using digit

/-- A number that is not zero starts with another digit. -/
theorem head_toDigits {n : Nat} (positive : n ≠ 0) : (Nat.toDigits 10 n).head? ≠ some '0' := by
  induction n using Nat.strongRecOn with
  | ind n ih =>
      by_cases small : n < 10
      · rw [Nat.toDigits_of_lt_base small]
        have digits : ∀ m < 10, m ≠ 0 → [m.digitChar].head? ≠ some '0' := by decide
        exact digits n small positive
      · have smaller := ih (n / 10) (by omega) (by omega)
        obtain ⟨c, rest, digits⟩ := List.exists_cons_of_ne_nil (@Nat.toDigits_ne_nil (n / 10) 10)
        rw [Nat.toDigits_of_base_le (by decide) (by omega), digits]
        rwa [digits] at smaller

theorem isWhole_toDigits (n : Nat) : IsWhole (Nat.toDigits 10 n) where
  toIsDigits := isDigits_toDigits n
  leading zero := by
    by_cases positive : n = 0
    · rw [positive, Nat.toDigits_zero]
      rfl
    · exact absurd zero (head_toDigits positive)

theorem numeral_toString (n : Nat) : Numeral (toString n).toList := by
  rw [Nat.toString_eq_ofList_toDigits, String.toList_ofList]
  simpa using Numeral.plain (.parts (isWhole_toDigits n) (.inl rfl) (.inl rfl))

/-- The digits of a number read back as the number. -/
@[simp] theorem natToken?_toString (n : Nat) : natToken? (toString n) = some n := by
  have digits : (Nat.toDigits 10 n).all Char.isDigit = true := by
    rw [List.all_eq_true]
    intro c member
    exact Nat.isDigit_of_mem_toDigits (by decide) (by decide) member
  have value : Decimal.natOfDigits (Nat.toDigits 10 n) = n := by
    rw [Decimal.natOfDigits]
    simpa [Nat.ofDigitChars_eq_foldl, Nat.mul_comm] using @Nat.ofDigitChars_ten_toDigits n
  rw [natToken?, Nat.toString_eq_ofList_toDigits, String.toList_ofList, value]
  exact if_pos ⟨Nat.toDigits_ne_nil, digits⟩

end SourceAtlas.Json
