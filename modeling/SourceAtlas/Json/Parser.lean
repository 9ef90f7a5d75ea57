/- Reading JSON text, strictly: blanks around tokens, and nothing after the value. -/
import SourceAtlas.Json.Basic

namespace SourceAtlas.Json

/-- The characters that may stand between tokens. -/
def isSpace (c : Char) : Bool := c == ' ' || c == '\n' || c == '\r' || c == '\t'

def skipSpace (input : List Char) : List Char := input.dropWhile isSpace

def isDigit (c : Char) : Bool := '0' ≤ c && c ≤ '9'

/-- A string literal from behind its opening quote up to its closing quote.
Escapes are checked for their form only. -/
def scanString? (done : List Char) : List Char → Option (String × List Char)
  | [] => none
  | '"' :: rest => some (String.ofList done.reverse, rest)
  | '\\' :: 'u' :: a :: b :: c :: d :: rest =>
    if (hexUnit? a b c d).isSome then scanString? (d :: c :: b :: a :: 'u' :: '\\' :: done) rest
    else none
  | '\\' :: e :: rest =>
    if (simpleEscape? e).isSome then scanString? (e :: '\\' :: done) rest else none
  | c :: rest => if c = '\\' ∨ c.toNat < 0x20 then none else scanString? (c :: done) rest

/-- A run of at least one digit. -/
def scanDigits? (input : List Char) : Option (List Char × List Char) :=
  match input.span isDigit with
  | ([], _) => none
  | digits => some digits

/-- An integer without its sign: zero alone, or digits that do not start with zero. -/
def scanInteger? (input : List Char) : Option (List Char × List Char) :=
  match scanDigits? input with
  | some ('0' :: _ :: _, _) => none
  | scanned => scanned

/-- A decimal point with the digits after it, if there is one. -/
def scanFraction? (input : List Char) : Option (List Char × List Char) :=
  match input with
  | '.' :: rest => (scanDigits? rest).map fun (digits, rest) => ('.' :: digits, rest)
  | _ => some ([], input)

/-- The sign of an exponent, if there is one. -/
def scanSign (input : List Char) : List Char × List Char :=
  match input with
  | '+' :: rest => (['+'], rest)
  | '-' :: rest => (['-'], rest)
  | _ => ([], input)

/-- An exponent, if there is one. -/
def scanExponent? (input : List Char) : Option (List Char × List Char) :=
  match input with
  | mark :: rest =>
    if mark = 'e' ∨ mark = 'E' then
      let (sign, rest) := scanSign rest
      (scanDigits? rest).map fun (digits, rest) => (mark :: sign ++ digits, rest)
    else some ([], input)
  | [] => some ([], input)

/-- A number token. -/
def scanNumber? (input : List Char) : Option (String × List Char) := do
  let (sign, rest) := match input with
    | '-' :: rest => (['-'], rest)
    | _ => ([], input)
  let (whole, rest) ← scanInteger? rest
  let (fraction, rest) ← scanFraction? rest
  let (exponent, rest) ← scanExponent? rest
  return (String.ofList (sign ++ whole ++ fraction ++ exponent), rest)

mutual

/-- A value and the text behind it; the number bounds the depth of the reading. -/
def value? : Nat → List Char → Option (Json × List Char)
  | 0, _ => none
  | fuel + 1, input =>
    match input with
    | 'n' :: 'u' :: 'l' :: 'l' :: rest => some (.null, rest)
    | 't' :: 'r' :: 'u' :: 'e' :: rest => some (.bool true, rest)
    | 'f' :: 'a' :: 'l' :: 's' :: 'e' :: rest => some (.bool false, rest)
    | '"' :: rest => (scanString? [] rest).map fun (literal, rest) => (.string literal, rest)
    | '[' :: rest =>
      match skipSpace rest with
      | ']' :: rest => some (.array [], rest)
      | rest => (items? fuel rest).map fun (items, rest) => (.array items, rest)
    | '\x7b' :: rest =>
      match skipSpace rest with
      | '\x7d' :: rest => some (.object [], rest)
      | rest => (fields? fuel rest).map fun (fields, rest) => (.object fields, rest)
    | _ => (scanNumber? input).map fun (token, rest) => (.number token, rest)

/-- One or more items up to the closing bracket. -/
def items? : Nat → List Char → Option (List Json × List Char)
  | 0, _ => none
  | fuel + 1, input => do
    let (item, rest) ← value? fuel input
    match skipSpace rest with
    | ',' :: rest =>
      let (items, rest) ← items? fuel (skipSpace rest)
      return (item :: items, rest)
    | ']' :: rest => return ([item], rest)
    | _ => none

/-- One or more fields up to the closing brace. -/
def fields? : Nat → List Char → Option (List (String × Json) × List Char)
  | 0, _ => none
  | fuel + 1, input => do
    let (key, rest) ← match input with
      | '"' :: rest => scanString? [] rest
      | _ => none
    let rest ← match skipSpace rest with
      | ':' :: rest => some (skipSpace rest)
      | _ => none
    let (value, rest) ← value? fuel rest
    match skipSpace rest with
    | ',' :: rest =>
      let (fields, rest) ← fields? fuel (skipSpace rest)
      return ((key, value) :: fields, rest)
    | '\x7d' :: rest => return ([(key, value)], rest)
    | _ => none

end

/-- The value that a text holds. Each level of reading consumes a character, so the length of
the text bounds the depth. -/
def parse? (text : String) : Option Json := do
  let input := skipSpace text.toList
  let (json, rest) ← value? (input.length + 1) input
  guard (skipSpace rest).isEmpty
  return json

end SourceAtlas.Json
