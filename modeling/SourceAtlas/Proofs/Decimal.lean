/- The texts of doubles are number tokens. -/
import SourceAtlas.Decimal.Shortest
import SourceAtlas.Proofs.Json.Numeral

namespace SourceAtlas.Decimal

open Json (Numeral Magnitude IsDigits IsWhole IsExponent isDigits_toDigits isWhole_toDigits
  head_toDigits)

/-- Zero rounds to zero only. -/
theorem roundsTo_zero {binary : Binary} (positive : binary.mantissa ≠ 0) (exponent : Int) :
    roundsTo binary ⟨0, exponent⟩ = false := by
  have below : ∀ quarters, 0 < quarters → compareQuarters binary ⟨0, exponent⟩ quarters = .lt := by
    intro quarters some
    simp only [compareQuarters, Nat.zero_mul, Nat.compare_eq_lt]
    exact Nat.mul_pos (Nat.mul_pos some (Nat.pow_pos (by decide))) (Nat.pow_pos (by decide))
  have low : 0 < 4 * binary.mantissa - (if binary.narrowBelow then 1 else 2) := by
    split <;> omega
  simp [roundsTo, below _ low, below (4 * binary.mantissa + 2) (by omega)]

theorem roundsTo_of_withDigits? {tie : Tie} {binary : Binary} {count : Nat} {decimal : Scaled}
    (found : withDigits? tie binary count = some decimal) : roundsTo binary decimal = true := by
  simp only [withDigits?] at found
  split at found
  · next below above =>
      split at found
      · exact Option.some.inj found ▸ above
      · exact Option.some.inj found ▸ below
  · next below _ => exact Option.some.inj found ▸ below
  · next _ above => exact Option.some.inj found ▸ above
  · cases found

theorem strip_digits (fuel : Nat) {decimal : Scaled} (positive : decimal.digits ≠ 0) :
    (strip fuel decimal).digits ≠ 0 := by
  induction fuel generalizing decimal with
  | zero => exact positive
  | succ fuel ih =>
      rw [strip]
      split
      · exact ih (by dsimp only; omega)
      · exact positive

/-- A number that is not zero has digits, unless no count of them suffices: then zero itself
stands for it. -/
theorem shortest_digits {binary : Binary} (positive : binary.mantissa ≠ 0) (tie : Tie) :
    (shortest tie binary).digits ≠ 0 ∨ shortest tie binary = ⟨0, 0⟩ := by
  rw [shortest]
  cases found : (List.range 17).findSome? fun i => withDigits? tie binary (i + 1) with
  | none => exact .inr rfl
  | some decimal =>
      obtain ⟨count, _, made⟩ := List.exists_of_findSome?_eq_some found
      refine .inl (strip_digits 20 fun zero => ?_)
      have rounds := roundsTo_of_withDigits? made
      obtain ⟨digits, exponent⟩ := decimal
      obtain rfl : digits = 0 := zero
      rw [roundsTo_zero positive] at rounds
      cases rounds

theorem isExponent_power (layout : Layout) (power : Int) : IsExponent (layout.power power) := by
  have text : (toString power).toList = power.repr.toList := rfl
  rw [Layout.power, text, Int.repr_eq_if]
  by_cases large : 0 ≤ power
  · rw [if_pos large, Nat.repr_eq_ofList_toDigits, String.toList_ofList]
    refine .inr ⟨if layout.plus ∧ 0 ≤ power then ['+'] else [], _, ?_,
      isDigits_toDigits power.toNat, rfl⟩
    split <;> simp
  · rw [if_neg large, if_neg (fun both => large both.2), Nat.repr_eq_ofList_toDigits]
    exact .inr ⟨['-'], _, by simp, isDigits_toDigits (-power).toNat, by simp⟩

/-- One digit, a fraction if there are more, and a power of ten. -/
theorem magnitude_scientific {digit : Char} {rest exponent : List Char}
    (digits : IsDigits (digit :: rest)) (power : IsExponent exponent) :
    Magnitude (match digit :: rest with
      | [digit] => String.ofList (digit :: exponent)
      | digits => String.ofList (digits.take 1 ++ ['.'] ++ digits.drop 1 ++ exponent)).toList := by
  have whole : IsWhole [digit] := ⟨digits.of_subset (by simp) (by simp), fun _ => rfl⟩
  cases rest with
  | nil => simpa using Magnitude.parts whole (.inl rfl) power
  | cons next rest =>
      have fraction : IsDigits (next :: rest) :=
        digits.of_subset (by simp) fun c member => .inl (List.mem_cons_of_mem _ member)
      simpa using Magnitude.parts whole (.inr ⟨_, fraction, rfl⟩) power

/-- The text of a decimal number is a number token, if zero is not scaled. -/
theorem Scaled.magnitude_toText (layout : Layout) {decimal : Scaled}
    (proper : decimal.digits ≠ 0 ∨ decimal = ⟨0, 0⟩) :
    Magnitude (decimal.toText layout).toList := by
  have digits := isDigits_toDigits decimal.digits
  have leading : decimal.exponent ≠ 0 → (Nat.toDigits 10 decimal.digits).head? ≠ some '0' := by
    intro scaled
    rcases proper with positive | rfl
    · exact head_toDigits positive
    · exact absurd rfl scaled
  have alone := (isWhole_toDigits decimal.digits).leading
  simp only [Scaled.toText]
  obtain ⟨digit, rest, same⟩ := List.exists_cons_of_ne_nil digits.nonempty
  rw [same] at digits leading alone ⊢
  split
  · -- Zeros behind the digits leave the first digit first; zero itself gets none.
    have whole : IsWhole (digit :: rest ++ List.replicate decimal.exponent.toNat '0') := by
      refine ⟨digits.of_subset (by simp) (by simp +contextual [or_imp]), fun zero => ?_⟩
      by_cases scaled : decimal.exponent = 0
      · simp_all
      · exact absurd zero (leading scaled)
    simpa using Magnitude.parts whole (.inr ⟨['0'], isDigits_toDigits 0, rfl⟩) (.inl rfl)
  split
  · next full inside =>
      obtain ⟨place, fits⟩ : ∃ n,
        (((digit :: rest).length : Int) + decimal.exponent).toNat = n + 1 :=
        Nat.exists_eq_add_one.mpr (by omega)
      rw [fits]
      have whole : IsWhole ((digit :: rest).take (place + 1)) :=
        ⟨digits.of_subset (by simp) fun c member => .inl (List.mem_of_mem_take member),
          fun zero => absurd zero (leading (by omega))⟩
      have fraction : IsDigits ((digit :: rest).drop (place + 1)) :=
        digits.of_subset (by simp at fits ⊢; omega) fun c member =>
          .inl (List.mem_of_mem_drop member)
      simpa using Magnitude.parts whole (.inr ⟨_, fraction, rfl⟩) (.inl rfl)
  split
  · have fraction : IsDigits
        (List.replicate (-(((digit :: rest).length : Int) + decimal.exponent)).toNat '0' ++
          digit :: rest) :=
      digits.of_subset (by simp) (by simp +contextual [or_imp])
    simpa using Magnitude.parts (isWhole_toDigits 0) (.inr ⟨_, fraction, rfl⟩) (.inl rfl)
  · exact magnitude_scientific digits (isExponent_power layout _)

/-- The text of every double is a number token. -/
theorem numeral_toText (layout : Layout) (value : Float) :
    Numeral (toText layout value).toList := by
  have magnitude : Magnitude (if (Binary.ofBits value.toBits).mantissa = 0 then "0.0"
      else (shortest layout.tie (Binary.ofBits value.toBits)).toText layout).toList := by
    split
    · exact .parts (isWhole_toDigits 0) (.inr ⟨['0'], isDigits_toDigits 0, rfl⟩) (.inl rfl)
    · next positive => exact Scaled.magnitude_toText layout (shortest_digits positive layout.tie)
  have text : toText layout value = (if value.toBits.toNat < twoTo 63 then "" else "-") ++
      (if (Binary.ofBits value.toBits).mantissa = 0 then "0.0"
        else (shortest layout.tie (Binary.ofBits value.toBits)).toText layout) := by
    simp only [toText]
    split <;> rfl
  rw [text, String.toList_append]
  split
  · exact .plain magnitude
  · exact .negative magnitude

end SourceAtlas.Decimal
