/- Typed values out of JSON values. -/
import SourceAtlas.Decimal.Reading
import SourceAtlas.Json.Basic
import SourceAtlas.TextMap

namespace SourceAtlas.Json

variable {α : Type}

/-- The natural number of a token that consists of digits. -/
def natToken? (token : String) : Option Nat :=
  let digits := token.toList
  if digits ≠ [] ∧ digits.all Char.isDigit then some (Decimal.natOfDigits digits) else none

/-- A number below two to the power 64, written as an integer. -/
def natural? : Json → Option Nat
  | .number token => (natToken? token).filter (· < UInt64.size)
  | _ => none

def word? (json : Json) : Option UInt64 := json.natural?.map UInt64.ofNat

/-- A signed number of 64 bits, written as an integer; a negative zero is none. -/
def integer? : Json → Option Int
  | .number token =>
    match token.toList with
    | '-' :: digits =>
      ((natToken? (String.ofList digits)).filter fun n => 0 < n ∧ n ≤ 0x8000000000000000).map
        fun n => -(n : Int)
    | _ => ((natToken? token).filter (· < 0x8000000000000000)).map fun n => (n : Int)
  | _ => none

/-- A number in any form, as a double. -/
def float? : Json → Option Float
  | .number token => Decimal.ofToken? token
  | _ => none

/-- A value or null. -/
def optional? (decode : Json → Option α) : Json → Option (Option α)
  | .null => some none
  | json => (decode json).map some

def list? (decode : Json → Option α) : Json → Option (List α)
  | .array items => items.mapM decode
  | _ => none

/-- A map from an object; of equal keys the last counts. -/
def map? (decode : Json → Option α) : Json → Option (TextMap α)
  | .object fields => do
    let entries ← fields.mapM fun (key, value) => do return (← unescape? key, ← decode value)
    return entries.foldl (fun map (key, value) => map.insert key value) ∅
  | _ => none

/-- One of several named values: its name, or an object from its name to null. -/
def choice? (name : α → String) (options : List α) : Json → Option α
  | .string literal =>
    (unescape? literal).bind fun text => options.find? fun option => name option = text
  | .object [(key, .null)] =>
    (unescape? key).bind fun text => options.find? fun option => name option = text
  | _ => none

/-- The fields of a record that are given, by name. Fields of other names are passed over, none
may be given twice, and a list stands for the first fields in order. -/
def recordFields? (names : List String) : Json → Option (List (String × Json))
  | .object fields => do
    let decoded ← fields.mapM fun (key, value) => (unescape? key).map fun key => (key, value)
    let known := decoded.filter fun (key, _) => key ∈ names
    guard (known.map Prod.fst).Nodup
    return known
  | .array items => if items.length ≤ names.length then some (names.zip items) else none
  | _ => none

/-- A field that has to be given. -/
def required? (fields : List (String × Json)) (name : String) (decode : Json → Option α) :
    Option α :=
  (fields.lookup name).bind decode

/-- A field that may be left out. -/
def defaulted? (fields : List (String × Json)) (name : String) (decode : Json → Option α)
    (absent : α) :
    Option α :=
  match fields.lookup name with
  | some json => decode json
  | none => some absent

end SourceAtlas.Json
