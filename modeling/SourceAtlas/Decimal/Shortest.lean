/- Shortest decimal text of a binary floating point number. -/

namespace SourceAtlas.Decimal

def twoTo (n : Nat) : Nat := Nat.pow 2 n

def tenTo (n : Nat) : Nat := Nat.pow 10 n

/-- A positive number as a multiple of a power of two, with the gap to its lower neighbour. -/
structure Binary where
  mantissa : Nat
  exponent : Int
  /-- The lower neighbour is only half as far away as the upper one. -/
  narrowBelow : Bool
deriving DecidableEq, Repr

/-- The parts of the magnitude of a finite double, from its bits. -/
def Binary.ofBits (bits : UInt64) : Binary :=
  let raw := bits.toNat
  let fraction := raw % twoTo 52
  let biased : Nat := raw / twoTo 52 % twoTo 11
  if biased = 0 then ⟨fraction, -1074, false⟩
  else ⟨twoTo 52 + fraction, (biased : Int) - 1075, fraction = 0 ∧ 1 < biased⟩

/-- A decimal number: digits as a number, times a power of ten. -/
structure Scaled where
  digits : Nat
  exponent : Int
deriving DecidableEq, Repr

/-- Order of a decimal number and a multiple of a quarter of the unit of a binary one. -/
def compareQuarters (binary : Binary) (decimal : Scaled) (quarters : Nat) : Ordering :=
  let unit := binary.exponent - 2
  let left := decimal.digits * tenTo decimal.exponent.toNat * twoTo (-unit).toNat
  let right := quarters * twoTo unit.toNat * tenTo (-decimal.exponent).toNat
  compare left right

/-- Whether a decimal number rounds to a binary one; the ends of the interval do so exactly
when the mantissa is even. -/
def roundsTo (binary : Binary) (decimal : Scaled) : Bool :=
  let low := 4 * binary.mantissa - (if binary.narrowBelow then 1 else 2)
  let high := 4 * binary.mantissa + 2
  let inside := compareQuarters binary decimal low == .gt &&
    compareQuarters binary decimal high == .lt
  let atEnd := compareQuarters binary decimal low == .eq ||
    compareQuarters binary decimal high == .eq
  inside || (atEnd && binary.mantissa % 2 == 0)

/-- The number of decimal digits before the point; zero or less for numbers below one. -/
def magnitude (binary : Binary) : Int :=
  let whole := binary.mantissa * twoTo binary.exponent.toNat / twoTo (-binary.exponent).toNat
  if whole ≠ 0 then ((Nat.toDigits 10 whole).length : Int)
  else
    let leading := (List.range 400).find? fun zeros =>
      twoTo (-binary.exponent).toNat ≤ binary.mantissa * tenTo (zeros + 1)
    Int.negOfNat (leading.getD 0)

/-- Which of two equally near decimal numbers is taken. -/
inductive Tie where
  | even
  | upper
deriving DecidableEq, Repr

/-- The nearest neighbour of a number with a given count of digits that still rounds to it. -/
def withDigits? (tie : Tie) (binary : Binary) (count : Nat) : Option Scaled :=
  let exponent := magnitude binary - count
  let shifted := binary.mantissa * twoTo binary.exponent.toNat * tenTo (-exponent).toNat
  let divisor := twoTo (-binary.exponent).toNat * tenTo exponent.toNat
  let below : Scaled := ⟨shifted / divisor, exponent⟩
  let above : Scaled := ⟨shifted / divisor + 1, exponent⟩
  let upper := divisor < 2 * (shifted % divisor) ∨
    (2 * (shifted % divisor) = divisor ∧ (tie = .upper ∨ below.digits % 2 = 1))
  match roundsTo binary below, roundsTo binary above with
  | true, true => some (if upper then above else below)
  | true, false => some below
  | false, true => some above
  | false, false => none

/-- A decimal number without trailing zeros among its digits. -/
def strip : Nat → Scaled → Scaled
  | 0, decimal => decimal
  | fuel + 1, decimal =>
    if decimal.digits ≠ 0 ∧ decimal.digits % 10 = 0 then
      strip fuel ⟨decimal.digits / 10, decimal.exponent + 1⟩
    else decimal

/-- The decimal number with the fewest digits that rounds to a binary one, the nearest of those. -/
def shortest (tie : Tie) (binary : Binary) : Scaled :=
  strip 20 (((List.range 17).findSome? fun i => withDigits? tie binary (i + 1)).getD ⟨0, 0⟩)

/-- What is left open about the text of a number. -/
structure Layout where
  /-- The most zeros that may follow the point of a number below one that is written in full. -/
  zeros : Nat
  /-- Whether a plus sign stands before the power of a large number. -/
  plus : Bool
  tie : Tie
deriving DecidableEq, Repr

/-- Numbers for display show up to three zeros after the point, and no plus signs. A half goes
up. -/
def Layout.display : Layout := ⟨3, false, .upper⟩

/-- The power of ten at the end of a number. -/
def Layout.power (layout : Layout) (power : Int) : List Char :=
  'e' :: (if layout.plus ∧ 0 ≤ power then ['+'] else []) ++ (toString power).toList

/-- Numbers with up to sixteen digits before the point, or with few zeros after it, are written
in full, always with a point; others as one digit, a fraction and a power of ten. -/
def Scaled.toText (layout : Layout) (decimal : Scaled) : String :=
  let digits := Nat.toDigits 10 decimal.digits
  let point : Int := digits.length + decimal.exponent
  if 0 ≤ decimal.exponent ∧ point ≤ 16 then
    String.ofList (digits ++ List.replicate decimal.exponent.toNat '0' ++ ['.', '0'])
  else if 0 < point ∧ point ≤ 16 then
    String.ofList (digits.take point.toNat ++ ['.'] ++ digits.drop point.toNat)
  else if -point ≤ layout.zeros ∧ point ≤ 0 then
    String.ofList (['0', '.'] ++ List.replicate (-point).toNat '0' ++ digits)
  else
    let power := layout.power (point - 1)
    match digits with
    | [digit] => String.ofList (digit :: power)
    | digits => String.ofList (digits.take 1 ++ ['.'] ++ digits.drop 1 ++ power)

/-- The text of a finite number. -/
def toText (layout : Layout) (value : Float) : String :=
  let bits := value.toBits
  let sign := if bits.toNat < twoTo 63 then "" else "-"
  let binary := Binary.ofBits bits
  if binary.mantissa = 0 then sign ++ "0.0" else sign ++ (shortest layout.tie binary).toText layout

end SourceAtlas.Decimal
