/- Reading the text of a decimal number as a double: the leading digits that fit in a 64-bit
word are scaled by a power of ten. -/

namespace SourceAtlas.Decimal

/-- Digits read so far: their value, and the power of ten that scales it. -/
structure Partial where
  significand : Nat
  exponent : Int
deriving DecidableEq, Repr

/-- The value after one more digit, if it still fits in a 64-bit word. -/
def Partial.push? (read : Partial) (digit : Char) : Option Nat :=
  let next := read.significand * 10 + (digit.toNat - '0'.toNat)
  if next < UInt64.size then some next else none

/-- Digits before the point. Those after the first that does not fit only scale. -/
def readWhole (read : Partial) : List Char → Partial
  | [] => read
  | digit :: rest =>
    match read.push? digit with
    | some next => readWhole { read with significand := next } rest
    | none => { read with exponent := read.exponent + (rest.length + 1) }

/-- Digits after the point. Those after the first that does not fit say nothing. -/
def readFraction (read : Partial) : List Char → Partial
  | [] => read
  | digit :: rest =>
    match read.push? digit with
    | some next => readFraction ⟨next, read.exponent - 1⟩ rest
    | none => read

/-- A power of ten, rounded. -/
def power (n : Nat) : Float := Float.ofScientific 1 false n

/-- A value scaled by a power of ten in double arithmetic; `none` when it is out of range.
Very small numbers are scaled in several steps, of which three already reach zero. -/
def scale? : Nat → Float → Int → Option Float
  | 0, value, _ => some value
  | fuel + 1, value, exponent =>
    if exponent.natAbs ≤ 308 then
      if 0 ≤ exponent then
        let scaled := value * power exponent.natAbs
        if scaled.isInf then none else some scaled
      else some (value / power exponent.natAbs)
    else if value == 0.0 then some value
    else if 0 ≤ exponent then none
    else scale? fuel (value / power 308) (exponent + 308)

/-- The parts of a number token: sign, digits before and after the point, and exponent. -/
structure Token where
  negative : Bool
  whole : List Char
  fraction : List Char
  exponentNegative : Bool
  exponentDigits : List Char
deriving DecidableEq, Repr

/-- The parts of a text that has the form of a number. -/
def Token.ofChars (text : List Char) : Token :=
  let isDigit (c : Char) : Bool := c.isDigit
  let negative := text.head? == some '-'
  let (whole, rest) := (if negative then text.drop 1 else text).span isDigit
  let (fraction, rest) := match rest with
    | '.' :: rest => rest.span isDigit
    | _ => ([], rest)
  let sign := rest.drop 1
  let exponentNegative := sign.head? == some '-'
  let digits := if exponentNegative || sign.head? == some '+' then sign.drop 1 else sign
  ⟨negative, whole, fraction, exponentNegative, digits⟩

/-- The number of a list of digits. -/
def natOfDigits (digits : List Char) : Nat :=
  digits.foldl (fun n digit => n * 10 + (digit.toNat - '0'.toNat)) 0

/-- The double that a number token stands for; `none` when it is too large. An exponent that
does not fit in 32 bits stands for zero or for a number that is too large. -/
def ofToken? (text : String) : Option Float :=
  let token := Token.ofChars text.toList
  let read := readFraction (readWhole ⟨0, 0⟩ token.whole) token.fraction
  let power : Int := natOfDigits token.exponentDigits
  let magnitude :=
    if 0x80000000 ≤ power then
      if read.significand ≠ 0 ∧ !token.exponentNegative then none else some 0.0
    else
      let exponent :=
        if token.exponentNegative then read.exponent - power else read.exponent + power
      scale? 5 (UInt64.ofNat read.significand).toFloat exponent
  magnitude.map fun value => if token.negative then -value else value

end SourceAtlas.Decimal
