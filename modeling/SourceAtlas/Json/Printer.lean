/- The written form of JSON values, on one line or indented. -/
import SourceAtlas.Json.Basic

namespace SourceAtlas.Json

/-- How a value is laid out. -/
inductive Layout where
  /-- Everything on one line without blanks. -/
  | line
  /-- Each item and field on a line of its own, indented by two spaces for each level. -/
  | block
deriving DecidableEq, Repr

/-- What stands before an item or a closing bracket at a given depth. -/
def Layout.break (layout : Layout) (depth : Nat) : List Char :=
  match layout with
  | .line => []
  | .block => '\n' :: List.replicate (2 * depth) ' '

/-- What stands between a key and its value. -/
def Layout.colon : Layout → List Char
  | .line => [':']
  | .block => [':', ' ']

/-- A literal between its quotes. -/
def quoted (literal : String) : List Char := '"' :: literal.toList ++ ['"']

variable (layout : Layout)

mutual

/-- The written form of a value at a given depth. -/
def writeChars (depth : Nat) : Json → List Char
  | .null => ['n', 'u', 'l', 'l']
  | .bool true => ['t', 'r', 'u', 'e']
  | .bool false => ['f', 'a', 'l', 's', 'e']
  | .number token => token.toList
  | .string literal => quoted literal
  | .array [] => ['[', ']']
  | .array (item :: rest) =>
    '[' :: layout.break (depth + 1) ++ writeChars (depth + 1) item ++ writeItems (depth + 1) rest ++
      layout.break depth ++ [']']
  | .object [] => ['\x7b', '\x7d']
  | .object ((key, value) :: rest) =>
    '\x7b' :: layout.break (depth + 1) ++ quoted key ++ layout.colon ++
      writeChars (depth + 1) value ++
      writeFields (depth + 1) rest ++ layout.break depth ++ ['\x7d']

/-- The items after the first. -/
def writeItems (depth : Nat) : List Json → List Char
  | [] => []
  | item :: rest => ',' :: layout.break depth ++ writeChars depth item ++ writeItems depth rest

/-- The fields after the first. -/
def writeFields (depth : Nat) : List (String × Json) → List Char
  | [] => []
  | (key, value) :: rest =>
    ',' :: layout.break depth ++ quoted key ++ layout.colon ++ writeChars depth value ++
      writeFields depth rest

end

/-- The written form of a value. -/
def write (json : Json) : String := String.ofList (writeChars layout 0 json)

/-- The indented form of a value. -/
def pretty (json : Json) : String := write .block json

end SourceAtlas.Json
