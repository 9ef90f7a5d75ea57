/- JSON values. Numbers and strings keep the form in which they are written, so that a reader
decides what each may stand for. -/

namespace SourceAtlas

inductive Json where
  | null
  | bool (value : Bool)
  /-- A number by its token. -/
  | number (token : String)
  /-- A string by what stands between its quotes, escapes included. -/
  | string (literal : String)
  | array (items : List Json)
  /-- Fields in order, with each key as it stands between its quotes. -/
  | object (fields : List (String × Json))
deriving Repr, Inhabited

namespace Json

/-- The hexadecimal digit of a number below sixteen, in lower case. -/
def hexDigit (n : Nat) : Char := Nat.digitChar n

/-- The value of a hexadecimal digit of either case. -/
def hexValue? (c : Char) : Option Nat :=
  if '0' ≤ c ∧ c ≤ '9' then some (c.toNat - '0'.toNat)
  else if 'a' ≤ c ∧ c ≤ 'f' then some (c.toNat - 'a'.toNat + 10)
  else if 'A' ≤ c ∧ c ≤ 'F' then some (c.toNat - 'A'.toNat + 10)
  else none

/-- The value of four hexadecimal digits. -/
def hexUnit? (a b c d : Char) : Option Nat := do
  let a ← hexValue? a
  let b ← hexValue? b
  let c ← hexValue? c
  let d ← hexValue? d
  return ((a * 16 + b) * 16 + c) * 16 + d

/-- The written form of one character: quotes, backslashes and control characters are escaped. -/
def escapeChar (c : Char) : List Char :=
  match c with
  | '"' => ['\\', '"']
  | '\\' => ['\\', '\\']
  | '\n' => ['\\', 'n']
  | '\r' => ['\\', 'r']
  | '\t' => ['\\', 't']
  | '\x08' => ['\\', 'b']
  | '\x0c' => ['\\', 'f']
  | c =>
    if c.toNat < 0x20 then ['\\', 'u', '0', '0', hexDigit (c.toNat / 16), hexDigit (c.toNat % 16)]
    else [c]

/-- The written form of a text. -/
def escape (text : String) : String :=
  String.ofList (text.toList.flatMap escapeChar)

/-- The character of a one-letter escape. -/
def simpleEscape? : Char → Option Char
  | '"' => some '"'
  | '\\' => some '\\'
  | '/' => some '/'
  | 'b' => some '\x08'
  | 'f' => some '\x0c'
  | 'n' => some '\n'
  | 'r' => some '\r'
  | 't' => some '\t'
  | _ => none

/-- One UTF-16 unit or one character of a written text. -/
inductive Unit16 where
  | char (c : Char)
  | unit (n : Nat)
deriving DecidableEq

/-- The units of a written text; `none` when an escape is malformed or a character is not
allowed. -/
def unitsOf? (done : List Unit16) : List Char → Option (List Unit16)
  | [] => some done.reverse
  | '\\' :: 'u' :: a :: b :: c :: d :: rest =>
    match hexUnit? a b c d with
    | some n => unitsOf? (.unit n :: done) rest
    | none => none
  | '\\' :: e :: rest =>
    match simpleEscape? e with
    | some c => unitsOf? (.char c :: done) rest
    | none => none
  | c :: rest =>
    if c = '\\' ∨ c = '"' ∨ c.toNat < 0x20 then none else unitsOf? (.char c :: done) rest

/-- The text of a sequence of units; a surrogate without its partner has none. -/
def textOfUnits? (done : List Char) : List Unit16 → Option (List Char)
  | [] => some done.reverse
  | .char c :: rest => textOfUnits? (c :: done) rest
  | .unit n :: rest =>
    if n < 0xD800 ∨ 0xDFFF < n then textOfUnits? (Char.ofNat n :: done) rest
    else match rest with
      | .unit m :: rest =>
        if n < 0xDC00 ∧ 0xDC00 ≤ m ∧ m ≤ 0xDFFF then
          textOfUnits? (Char.ofNat (0x10000 + (n - 0xD800) * 0x400 + (m - 0xDC00)) :: done) rest
        else none
      | _ => none

/-- The text that a written form stands for. -/
def unescape? (literal : String) : Option String := do
  let units ← unitsOf? [] literal.toList
  let text ← textOfUnits? [] units
  return String.ofList text

/-- A string value for a text. -/
def text (value : String) : Json := .string (escape value)

/-- A number value for a natural number. -/
def nat (value : Nat) : Json := .number (toString value)

/-- A number value for an integer. -/
def int (value : Int) : Json := .number (toString value)

/-- An object value with plain keys. -/
def record (fields : List (String × Json)) : Json :=
  .object (fields.map fun (key, value) => (escape key, value))

/-- A text, or null when there is none. -/
def optText (value : Option String) : Json :=
  match value with
  | some value => text value
  | none => .null

/-- The text of a string value. -/
def text? : Json → Option String
  | .string literal => unescape? literal
  | _ => none

def texts (values : List String) : Json := .array (values.map text)

end Json

end SourceAtlas
