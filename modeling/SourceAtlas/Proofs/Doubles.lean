/- Doubles in order. The place that the bits of a double give it among all doubles agrees with the
comparison of the numbers they stand for, but for the two zeros. The ranks of call targets are
numbers and never the negative zero, so that a list in order of place is a list in order of rank. -/
import Mathlib
import SourceAtlas.Story.CallGraph

namespace SourceAtlas.Double

open CallGraph (orderKey)
open Float.Model (Format UnpackedFloat totalExponent)
open Float.Model.UnpackedFloat

section Order

/-- What a number and its bits have in common: the sign, and how far from zero the bits below it
reach. -/
inductive Reads (sign : Sign) (distance : Int) : UnpackedFloat → Prop where
  | zero : distance = 0 → Reads sign distance (.zero sign)
  | finite {mantissa : Nat} {exponent : Int} (positive : 0 < mantissa) :
      mantissa < 0x20000000000000 →
      -1074 ≤ exponent → exponent ≤ 971 → 0x10000000000000 ≤ mantissa ∨ exponent = -1074 →
      distance = (exponent + 1074) * 0x10000000000000 + mantissa →
      Reads sign distance (.finite sign mantissa exponent positive)
  | infinite : distance = 2047 * 0x10000000000000 → Reads sign distance (.infinity sign)
  | undefined : 2047 * 0x10000000000000 < distance → Reads sign distance .notANumber

def place : Sign → Int → Int
  | .positive, distance => distance
  | .negative, distance => -distance - 1

variable (bits : BitVec 64)

theorem toNat_unpackExponent :
    (@unpackExponent .binary64 bits).toNat = bits.toNat / 0x10000000000000 % 2048 := by
  simp [unpackExponent, Nat.shiftRight_eq_div_pow]

theorem toNat_unpackMantissa :
    (@unpackMantissa .binary64 bits).toNat = bits.toNat % 0x10000000000000 := by
  simp [unpackMantissa]

theorem toNat_unpackSign :
    (@unpackSign .binary64 bits).toNat = bits.toNat / 0x8000000000000000 := by
  have small := bits.isLt
  simp [unpackSign, Nat.shiftRight_eq_div_pow]
  omega

theorem toNat_implicit (mantissa : BitVec 52) :
    (1#1 ++ mantissa).toNat = 0x10000000000000 + mantissa.toNat := by
  rw [BitVec.toNat_append, ← Nat.shiftLeft_add_eq_or_of_lt mantissa.isLt]
  rfl

theorem reads_unpack :
    Reads (.ofBitVec (@unpackSign .binary64 bits)) (bits.toNat % 0x8000000000000000 : Nat)
    (unpack .binary64 bits) := by
  have exponent := toNat_unpackExponent bits
  have mantissa := toNat_unpackMantissa bits
  have top : @unpackExponent .binary64 bits = -1#11 ↔
      bits.toNat / 0x10000000000000 % 2048 = 2047 := by
    rw [← BitVec.toNat_inj, exponent]
    rfl
  have bottom : @unpackExponent .binary64 bits = 0#11 ↔
      bits.toNat / 0x10000000000000 % 2048 = 0 := by
    rw [← BitVec.toNat_inj, exponent]
    rfl
  have blank : @unpackMantissa .binary64 bits = 0#52 ↔ bits.toNat % 0x10000000000000 = 0 := by
    rw [← BitVec.toNat_inj, mantissa]
    rfl
  have bias : (Format.binary64.exponentBias : Int) + Format.binary64.mantissaBitsWithoutImplicit =
      1075 := rfl
  simp only [unpack, bias]
  split
  · next high =>
      rw [top] at high
      split
      · next none =>
          rw [blank] at none
          exact .infinite (by omega)
      · next rest =>
          rw [blank] at rest
          exact .undefined (by omega)
  · next high =>
      rw [top] at high
      split
      · next low =>
          rw [bottom] at low
          split
          · next none =>
              rw [blank] at none
              exact .zero (by omega)
          · next rest =>
              -- Below the least exponent the leading one is missing, and the distance goes on
              -- counting.
              rw [blank] at rest
              exact .finite _ (by omega) (by omega) (by omega) (by omega) (by omega)
      · next low =>
          rw [bottom] at low
          have whole := toNat_implicit (@unpackMantissa .binary64 bits)
          exact .finite _ (by omega) (by omega) (by omega) (by omega) (by omega)

theorem exists_reads (value : Float) : ∃ sign distance,
    orderKey value = place sign distance ∧ Reads sign distance value.toModel.unpack := by
  have sign := toNat_unpackSign value.toModel.toBits.toBitVec
  have small := value.toModel.toBits.toBitVec.isLt
  have clear : @unpackSign .binary64 value.toModel.toBits.toBitVec = 0#1 ↔
      value.toModel.toBits.toBitVec.toNat / 0x8000000000000000 = 0 := by
    rw [← BitVec.toNat_inj, sign]
    rfl
  have bits : value.toBits.toNat = value.toModel.toBits.toBitVec.toNat := rfl
  refine ⟨_, _, ?_, reads_unpack value.toModel.toBits.toBitVec⟩
  simp only [orderKey, Sign.ofBitVec, bits]
  split
  · next less =>
      rw [if_pos (clear.mpr (by omega)), place]
      omega
  · next less =>
      rw [if_neg (mt clear.mp (by omega)), place]
      omega

variable {a b : UnpackedFloat} {s t : Sign} {m n : Int}

-- Of two numbers with one sign the one with the larger exponent has a leading one, which no
-- mantissa at a smaller exponent outweighs. The other cases differ in sign or in kind, and only the
-- two zeros have different places without being different numbers.
theorem compare_eq_lt_iff (left : Reads s m a) (right : Reads t n b) (known : a ≠ .notANumber)
    (also : b ≠ .notANumber) (proper : a ≠ .zero .negative) (other : b ≠ .zero .negative) :
    a.compare b = some .lt ↔ place s m < place t n := by
  have signs : compare Sign.negative Sign.positive = .lt := rfl
  have same (sign : Sign) : compare sign sign = .eq := by cases sign <;> rfl
  have opposite : compare Sign.positive Sign.negative = .gt := rfl
  cases left <;> cases right <;> cases s <;> cases t <;>
    simp only [UnpackedFloat.compare, signs, same, opposite, place, Option.some.injEq,
      Ordering.swap_eq_lt, Ordering.then_eq_lt, Ordering.then_eq_gt, Int.compare_eq_lt,
      Int.compare_eq_gt, Int.compare_eq_eq, Nat.compare_eq_lt, Nat.compare_eq_gt, ne_eq,
        not_true_eq_false, reduceCtorEq, true_iff, false_iff]
      at known also proper other ⊢ <;>
    omega

theorem Reads.neg (reads : Reads s m a) : Reads (-s) m a.neg := by
  cases reads with
  | zero distance => exact .zero distance
  | finite positive small least most leading distance =>
      exact .finite positive small least most leading distance
  | infinite distance => exact .infinite distance
  | undefined distance => exact .undefined distance

end Order

section Numbers

/-- A number with a given sign, so not the undefined value. -/
inductive Signed (sign : Sign) : UnpackedFloat → Prop where
  | zero : Signed sign (.zero sign)
  | finite {mantissa : Nat} {exponent : Int} (positive : 0 < mantissa) :
      Signed sign (.finite sign mantissa exponent positive)
  | infinite : Signed sign (.infinity sign)

theorem signed_unpack_packComponents (sign : Sign) {exponent : BitVec 11} {mantissa : BitVec 52}
    (defined : exponent = -1#11 → mantissa = 0#52) :
    Signed sign (unpack .binary64 (packComponents .binary64 sign exponent mantissa)) := by
  simp only [unpack, unpackExponent_packComponents, unpackMantissa_packComponents,
    unpackSign_packComponents, Sign.ofBitVec_toBitVec]
  split
  · next top =>
      rw [if_pos (defined top)]
      exact .infinite
  · split
    · split
      · exact .zero
      · exact .finite _
    · exact .finite _

variable {a b : UnpackedFloat} {sign s t : Sign}

/-- Storing a number keeps its sign; one that is too large becomes infinite. -/
theorem Signed.stored (signed : Signed sign a) :
    Signed sign (unpack .binary64 (UnpackedFloat.pack .binary64 a)) := by
  cases signed with
  | zero => exact signed_unpack_packComponents sign fun _ => rfl
  | infinite => exact signed_unpack_packComponents sign fun _ => rfl
  | finite positive =>
      simp only [UnpackedFloat.pack]
      split
      · exact signed_unpack_packComponents sign fun _ => rfl
      · next small =>
          split
          · apply signed_unpack_packComponents
            intro top
            have top := congrArg BitVec.toNat top
            rw [BitVec.toNat_ofNat] at top
            change _ % 2048 = 2047 at top
            change ¬2048 ≤ _ at small
            omega
          · exact signed_unpack_packComponents sign fun top => absurd top (by decide)

theorem signed_round (sign : Sign) (mantissa : Nat) (exponent : Int) (accuracy : Accuracy) :
    Signed sign (roundWithAccuracy .binary64 sign mantissa exponent accuracy) := by
  simp only [roundWithAccuracy]
  split
  · exact .zero
  · exact .finite _

theorem exists_signed_normalize (mantissa exponent : Int) (zeroSign : Sign) :
    ∃ sign, Signed sign (UnpackedFloat.normalize .binary64 mantissa exponent zeroSign) := by
  unfold UnpackedFloat.normalize
  split
  · exact ⟨.negative, signed_round _ _ _ _⟩
  · exact ⟨zeroSign, .zero⟩
  · exact ⟨.positive, signed_round _ _ _ _⟩

theorem signed_ofNat (count : Nat) : Signed .positive (UnpackedFloat.ofNat .binary64 count) := by
  unfold UnpackedFloat.ofNat UnpackedFloat.ofInt UnpackedFloat.normalize
  split
  · next below =>
      rw [Int.compare_eq_lt] at below
      omega
  · exact .zero
  · exact signed_round _ _ _ _

/-- A product of numbers is a number if one factor is finite and not zero. -/
theorem Signed.mul (left : Signed .positive a) (right : Signed .positive b)
    (proper : (∃ mantissa exponent positive, a = .finite .positive mantissa exponent positive) ∨
      ∃ mantissa exponent positive, b = .finite .positive mantissa exponent positive) :
    Signed .positive (UnpackedFloat.mul .binary64 a b) := by
  rcases proper with ⟨mantissa, exponent, positive, rfl⟩ | ⟨mantissa, exponent, positive, rfl⟩
  · cases right with
    | zero => exact .zero
    | infinite => exact .infinite
    | finite => exact signed_round _ _ _ _
  · cases left with
    | zero => exact .zero
    | infinite => exact .infinite
    | finite => exact signed_round _ _ _ _

/-- A sum of numbers is a number but for opposite infinities. -/
theorem Signed.add (left : Signed s a) (right : Signed t b) (together : s = t ∨ b.isFinite = true) :
    ∃ sign, Signed sign (UnpackedFloat.add .binary64 a b) := by
  cases left with
  | infinite =>
      cases right with
      | zero => exact ⟨s, .infinite⟩
      | finite => exact ⟨s, .infinite⟩
      | infinite =>
          rcases together with rfl | finite
          · cases s <;> exact ⟨_, .infinite⟩
          · cases finite
  | zero =>
      cases right with
      | zero => cases s <;> cases t <;> exact ⟨_, .zero⟩
      | finite positive => exact ⟨t, .finite positive⟩
      | infinite => exact ⟨t, .infinite⟩
  | finite positive =>
      cases right with
      | zero => exact ⟨s, .finite positive⟩
      | finite => exact exists_signed_normalize _ _ _
      | infinite => exact ⟨t, .infinite⟩

theorem sub_eq_add (a b : UnpackedFloat) :
    UnpackedFloat.sub .binary64 a b = UnpackedFloat.add .binary64 a b.neg := by
  cases a with
  | notANumber => rfl
  | infinity => cases b <;> rfl
  | zero => cases b <;> rfl
  | finite =>
      cases b with
      | notANumber => rfl
      | infinity => rfl
      | zero => rfl
      | finite sign =>
          cases sign with
          | positive => rfl
          | negative => exact congrArg (UnpackedFloat.normalize .binary64 · _ _) (Int.sub_neg _ _)

end Numbers

section Zeros

theorem mantissa_shiftRight (extended : ExtendedMantissa) (amount : Nat) :
    (extended >>> amount).mantissa = extended.mantissa >>> amount := by
  induction amount with
  | zero => rfl
  | succ amount ih =>
      change (extended >>> amount).mantissa / 2 = _
      rw [ih, Nat.shiftRight_succ]

theorem le_roundedMantissa (extended : ExtendedMantissa) :
    extended.mantissa ≤ extended.roundedMantissa := by
  unfold ExtendedMantissa.roundedMantissa Accuracy.roundToNearestEven
  split <;> omega

/-- No shift to the exponent of the format takes a number out of its range. -/
theorem shiftToTargetExponent_bounds {mantissa : Nat} {exponent : Int} (accuracy : Accuracy)
    (positive : 0 < mantissa) (least : -1074 ≤ exponent) :
    0 < (shiftToTargetExponent .binary64 mantissa exponent accuracy).1.mantissa ∧
      (shiftToTargetExponent .binary64 mantissa exponent accuracy).1.mantissa < 0x20000000000000 ∧
      -1074 ≤ (shiftToTargetExponent .binary64 mantissa exponent accuracy).2 := by
  let amount := (Format.binary64.targetExponent (totalExponent mantissa exponent) - exponent).toNat
  have whole : (shiftToTargetExponent .binary64 mantissa exponent accuracy).1.mantissa =
      mantissa >>> amount := by
    simp only [shiftToTargetExponent, shiftToExponent, mantissa_shiftRight]
    cases accuracy with
    | exact => rfl
    | inexact order => cases order <;> rfl
  have fits : amount ≤ mantissa.log2 ∧ mantissa.log2 < 53 + amount := by
    simp only [amount, Format.targetExponent, totalExponent, Format.mantissaBits,
      Format.minExponent]
    omega
  have proper : mantissa ≠ 0 := by omega
  refine ⟨?_, ?_, ?_⟩
  · rw [whole, Nat.shiftRight_eq_div_pow]
    have floor := Nat.log2_self_le proper
    have power := Nat.pow_le_pow_right (n := 2) (by decide) fits.1
    exact Nat.div_pos (Nat.le_trans power floor) (Nat.two_pow_pos _)
  · rw [whole, Nat.shiftRight_eq_div_pow, Nat.div_lt_iff_lt_mul (Nat.two_pow_pos _)]
    have ceiling := (Nat.log2_lt proper).mp fits.2
    rw [Nat.pow_add] at ceiling
    exact ceiling
  · change -1074 ≤ exponent + (amount : Int)
    omega

theorem round_bounds (sign : Sign) {mantissa : Nat} {exponent : Int} (positive : 0 < mantissa)
    (least : -1074 ≤ exponent) : ∃ (rounded : Nat) (power : Int) (proper : 0 < rounded),
      UnpackedFloat.round .binary64 sign mantissa exponent = .finite sign rounded power proper ∧
        rounded < 0x20000000000000 ∧ -1074 ≤ power := by
  let target := Format.binary64.targetExponent (totalExponent mantissa exponent)
  have lower : -1074 ≤ target := by
    simp only [target, Format.targetExponent, Format.minExponent, Format.mantissaBits]
    omega
  have shifted : 0 < mantissa <<< (exponent - target).toNat := by
    rw [Nat.shiftLeft_eq]
    exact Nat.mul_pos positive (Nat.two_pow_pos _)
  have first := shiftToTargetExponent_bounds .exact shifted
    (show -1074 ≤ exponent - ((exponent - target).toNat : Int) by omega)
  have kept := Nat.lt_of_lt_of_le first.1 (le_roundedMantissa _)
  obtain ⟨proper, small, power⟩ := shiftToTargetExponent_bounds .exact kept first.2.2
  refine ⟨_, _, proper, ?_, small, power⟩
  simp only [UnpackedFloat.round, decreaseExponent, roundWithAccuracy]
  exact dif_neg (Nat.ne_of_gt proper)

/-- A value that is not stored as the negative zero. -/
inductive Lasting : UnpackedFloat → Prop where
  | undefined : Lasting .notANumber
  | zero : Lasting (.zero .positive)
  | infinite (sign : Sign) : Lasting (.infinity sign)
  | finite {sign : Sign} {mantissa : Nat} {exponent : Int} (positive : 0 < mantissa) :
      mantissa < 0x20000000000000 → -1074 ≤ exponent →
        Lasting (.finite sign mantissa exponent positive)

theorem unpack_packComponents_ne_zero {s t : Sign} {exponent : BitVec 11} {mantissa : BitVec 52}
    (nonzero : exponent = 0#11 → mantissa ≠ 0#52) :
    unpack .binary64 (packComponents .binary64 s exponent mantissa) ≠ .zero t := by
  simp only [unpack, unpackExponent_packComponents, unpackMantissa_packComponents]
  intro zero
  split at zero
  · split at zero <;> cases zero
  · split at zero
    · next low =>
        rw [dif_neg (nonzero low)] at zero
        cases zero
    · cases zero

theorem Lasting.stored {a : UnpackedFloat} (lasting : Lasting a) :
    unpack .binary64 (UnpackedFloat.pack .binary64 a) ≠ .zero .negative := by
  cases lasting with
  | undefined => exact unpack_packComponents_ne_zero fun zero => absurd zero (by decide)
  | infinite sign => exact unpack_packComponents_ne_zero fun zero => absurd zero (by decide)
  | zero =>
      rw [UnpackedFloat.pack, unpack_packedZero]
      simp
  | finite positive small least =>
      simp only [UnpackedFloat.pack]
      split
      · exact unpack_packComponents_ne_zero fun zero => absurd zero (by decide)
      · next below =>
          change ¬2048 ≤ (_ + (1023 : Int) + 52).toNat + 1 at below
          split
          · apply unpack_packComponents_ne_zero
            intro zero
            have zero := congrArg BitVec.toNat zero
            rw [BitVec.toNat_ofNat] at zero
            change (_ + (1023 : Int) + 52).toNat % 2048 = 0 at zero
            omega
          · next short =>
              change ¬_ + 1 = 53 at short
              have proper := Nat.ne_of_gt positive
              have log := (Nat.log2_lt (k := 53) proper).mpr small
              have fits := (Nat.log2_lt (k := 52) proper).mp (by omega)
              apply unpack_packComponents_ne_zero
              intro _ zero
              have zero := congrArg BitVec.toNat zero
              rw [BitVec.toNat_ofNat] at zero
              change _ % 0x10000000000000 = 0 at zero
              change _ < 0x10000000000000 at fits
              omega

variable {a b : UnpackedFloat} {s t : Sign} {m n : Int}

theorem lasting_normalize (mantissa : Int) {exponent : Int} (least : -1074 ≤ exponent) :
    Lasting (UnpackedFloat.normalize .binary64 mantissa exponent .positive) := by
  unfold UnpackedFloat.normalize
  split
  · next below =>
      rw [Int.compare_eq_lt] at below
      obtain ⟨rounded, power, proper, made, small, lower⟩ :=
        round_bounds .negative (show 0 < (-mantissa).toNat by omega) least
      rw [made]
      exact .finite proper small lower
  · exact .zero
  · next above =>
      rw [Int.compare_eq_gt] at above
      obtain ⟨rounded, power, proper, made, small, lower⟩ :=
        round_bounds .positive (show 0 < mantissa.toNat by omega) least
      rw [made]
      exact .finite proper small lower

/-- Only the negative zero adds up with another to a negative zero. -/
theorem lasting_add (left : Reads s m a) (right : Reads t n b) (other : b ≠ .zero .negative) :
    Lasting (UnpackedFloat.add .binary64 a b) := by
  cases left with
  | undefined => exact .undefined
  | infinite =>
      cases right with
      | undefined => exact .undefined
      | zero => exact .infinite s
      | finite => exact .infinite s
      | infinite => cases s <;> cases t <;> first | exact .infinite _ | exact .undefined
  | zero =>
      cases right with
      | undefined => exact .undefined
      | infinite => exact .infinite t
      | finite positive small least => exact .finite positive small least
      | zero =>
          cases t with
          | negative => exact absurd rfl other
          | positive => cases s <;> exact .zero
  | finite positive small least =>
      cases right with
      | undefined => exact .undefined
      | infinite => exact .infinite t
      | zero => exact .finite positive small least
      | finite _ _ lower => exact lasting_normalize _ (by omega)

end Zeros

section Values

/-- A number other than the negative zero. -/
structure IsNumber (value : Float) : Prop where
  signed : ∃ sign, Signed sign value.toModel.unpack
  proper : value.toModel.unpack ≠ .zero .negative

def IsPositive (value : Float) : Prop :=
  ∃ mantissa exponent positive, value.toModel.unpack = .finite .positive mantissa exponent positive

variable {value shift : Float}

theorem IsNumber.of_signed (signed : Signed .positive value.toModel.unpack) : IsNumber value := by
  refine ⟨⟨.positive, signed⟩, ?_⟩
  intro zero
  rw [zero] at signed
  cases signed

theorem isNumber_add {s t : Sign} (left : Signed s value.toModel.unpack)
    (right : Signed t shift.toModel.unpack)
    (together : s = t ∨ shift.toModel.unpack.isFinite = true)
    (proper : shift.toModel.unpack ≠ .zero .negative) :
    IsNumber (value + shift) := by
  obtain ⟨_, _, -, first⟩ := exists_reads value
  obtain ⟨_, _, -, second⟩ := exists_reads shift
  obtain ⟨sign, signed⟩ := left.add right together
  exact ⟨⟨sign, signed.stored⟩, (lasting_add first second proper).stored⟩

theorem IsNumber.add (number : IsNumber value) (above : IsPositive shift) :
    IsNumber (value + shift) := by
  obtain ⟨s, left⟩ := number.signed
  obtain ⟨mantissa, exponent, positive, made⟩ := above
  have right : Signed .positive shift.toModel.unpack := by
    rw [made]
    exact .finite positive
  exact isNumber_add left right (.inr (by rw [made]; rfl)) (IsNumber.of_signed right).proper

theorem IsNumber.sub (number : IsNumber value) (above : IsPositive shift) :
    IsNumber (value - shift) := by
  obtain ⟨s, left⟩ := number.signed
  obtain ⟨mantissa, exponent, positive, made⟩ := above
  obtain ⟨_, _, -, first⟩ := exists_reads value
  obtain ⟨_, _, -, second⟩ := exists_reads shift
  rw [made] at second
  have sum : (value - shift).toModel.unpack = unpack .binary64 (UnpackedFloat.pack .binary64
      (UnpackedFloat.add .binary64 value.toModel.unpack
        (.finite .negative mantissa exponent positive))) := by
    change unpack .binary64 (UnpackedFloat.pack .binary64 (UnpackedFloat.sub .binary64 _ _)) = _
    rw [made, sub_eq_add]
    rfl
  obtain ⟨sign, signed⟩ := left.add (.finite positive) (.inr rfl)
  constructor
  · exact ⟨sign, sum ▸ signed.stored⟩
  · exact sum ▸ (lasting_add first second.neg (by simp [UnpackedFloat.neg])).stored

/-- A count is stored as a number that is not negative, even if it is too large to be finite. -/
theorem signed_toFloat (count : Nat) : Signed .positive count.toFloat.toModel.unpack := by
  change Signed .positive (Float.ofScientific count false 0).toModel.unpack
  unfold Float.ofScientific
  split
  · have one : Float.exactlyRepresentablePowersOfTen[0].toModel.unpack =
        .finite .positive 0x10000000000000 (-52) (by decide) := rfl
    have stored : Signed .positive count.toUInt64.toFloat.toModel.unpack := (signed_ofNat _).stored
    exact (stored.mul (one ▸ .finite _) (.inr ⟨_, _, _, one⟩)).stored
  · apply Signed.stored
    change Signed .positive (UnpackedFloat.ofScientific .binary64 count 0)
    unfold UnpackedFloat.ofScientific
    split
    · exact .zero
    · split
      · exact .infinite
      · split
        · exact .zero
        · rw [if_pos (Int.le_refl 0)]
          exact (Signed.finite _).mul (.finite _) (.inl ⟨_, _, _, rfl⟩)

theorem IsNumber.ne (number : IsNumber value) : value.toModel.unpack ≠ .notANumber := by
  obtain ⟨sign, signed⟩ := number.signed
  intro undefined
  rw [undefined] at signed
  cases signed

theorem lt_iff_orderKey_lt {a b : Float} (left : IsNumber a) (right : IsNumber b) :
    a < b ↔ orderKey a < orderKey b := by
  obtain ⟨s, m, first, reads⟩ := exists_reads a
  obtain ⟨t, n, second, also⟩ := exists_reads b
  have compared := compare_eq_lt_iff reads also left.ne right.ne left.proper right.proper
  rw [first, second, ← compared, ← beq_iff_eq]
  exact decide_eq_true_iff

theorem orderKey_inj {a b : Float} (same : orderKey a = orderKey b) : a = b := by
  have small := a.toBits.toBitVec.isLt
  have also := b.toBits.toBitVec.isLt
  have bits : a.toBits.toNat = b.toBits.toNat := by
    unfold orderKey at same
    simp only at same
    split at same <;> split at same <;> omega
  exact Float.toBits_inj.mp (UInt64.toNat_inj.mp bits)

end Values

end SourceAtlas.Double

namespace SourceAtlas.CallGraph

open Double

theorem isNumber_penalty {value : Float} (number : IsNumber value) (node : SymbolNode) :
    IsNumber (if isLowSignal node then value - 2.0 else value) := by
  split
  · exact number.sub ⟨_, _, _, rfl⟩
  · exact number

theorem isNumber_counts (out into : Nat) : IsNumber (2.0 * out.toFloat + 1.0 * into.toFloat) := by
  have two : (2.0 : Float).toModel.unpack = .finite .positive 0x10000000000000 (-51) (by decide) :=
    rfl
  have one : (1.0 : Float).toModel.unpack = .finite .positive 0x10000000000000 (-52) (by decide) :=
    rfl
  have made : Signed .positive (2.0 * out.toFloat).toModel.unpack :=
    (Signed.mul (two ▸ .finite _) (signed_toFloat out) (.inl ⟨_, _, _, two⟩)).stored
  have received : Signed .positive (1.0 * into.toFloat).toModel.unpack :=
    (Signed.mul (one ▸ .finite _) (signed_toFloat into) (.inl ⟨_, _, _, one⟩)).stored
  exact isNumber_add made received (.inl rfl) (IsNumber.of_signed received).proper

theorem isNumber_score (index : RepoIndex) (id : String) : IsNumber (score index id) := by
  unfold score
  split
  · exact .of_signed .zero
  · next node known =>
      have documented {value : Float} (number : IsNumber value) :
          IsNumber (if Text.trim node.summary = "" then value else value + 1.5) := by
        split
        · exact number
        · exact number.add ⟨_, _, _, rfl⟩
      have typed {value : Float} (number : IsNumber value) :
          IsNumber (if node.kind = .class then value + 0.5 else value) := by
        split
        · exact number.add ⟨_, _, _, rfl⟩
        · exact number
      exact isNumber_penalty (typed (documented (isNumber_counts _ _))) node

/-- Every rank is a number: what is added to the counts of calls is finite. -/
theorem isNumber_rank (index : RepoIndex) (caller target : SymbolNode) (confidence : Confidence) :
    IsNumber (rank index caller target confidence) := by
  have weighted : IsNumber (score index target.id + confidenceWeight confidence) := by
    cases confidence <;> exact (isNumber_score index target.id).add ⟨_, _, _, rfl⟩
  have crossing {value : Float} (number : IsNumber value) :
      IsNumber (if target.filePath? = caller.filePath? then value else value + 0.8) := by
    split
    · exact number
    · exact number.add ⟨_, _, _, rfl⟩
  exact isNumber_penalty (crossing weighted) target

end SourceAtlas.CallGraph
