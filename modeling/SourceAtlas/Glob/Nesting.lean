/- Patterns as regular expressions, and how deep these are nested. -/
import SourceAtlas.Glob.Match
import SourceAtlas.Text.Affix

namespace SourceAtlas.Glob

/-- Characters with a meaning in expressions. -/
def specialChars : List Char := "\\.+*?()|[]\x7b\x7d^$#&-~".toList

/-- A byte inside an expression. -/
def byteExpression (byte : UInt8) : String :=
  let c := Char.ofNat byte.toNat
  if 0x7F < byte then "\\x" ++ String.ofList (Nat.toDigits 16 byte.toNat)
  else if specialChars.contains c then "\\" ++ c.toString
  else c.toString

def charExpression (c : Char) : String := Text.join "" ((bytesOf c).map byteExpression)

def rangeExpression (range : Char × Char) : String :=
  if range.1 = range.2 then charExpression range.1
  else charExpression range.1 ++ "-" ++ charExpression range.2

mutual

/-- The expression of a part. Empty alternatives are left out. -/
def Part.expression : Part → String
  | .char c => charExpression c
  | .anyByte => "."
  | .anyBytes => ".*"
  | .leading => "(?:/?|.*/)"
  | .trailing => "/.*"
  | .between => "(?:/|/.*/)"
  | .oneOf negated ranges =>
    "[" ++ (if negated then "^" else "") ++ Text.join "" (ranges.map rangeExpression) ++ "]"
  | .choice branches =>
    if allVoid branches then "" else "(?:" ++ Text.join "|" (branchExpressions branches) ++ ")"

def sequenceExpression : List Part → String
  | [] => ""
  | part :: rest => part.expression ++ sequenceExpression rest

def branchExpressions : List (List Part) → List String
  | [] => []
  | branch :: rest =>
    if isVoid branch then branchExpressions rest
    else sequenceExpression branch :: branchExpressions rest

end

/-- The expression of a whole pattern. -/
def expression (parts : List Part) : String :=
  match parts with
  | [.leading] => "(?-u)^.*$"
  | parts => "(?-u)^" ++ sequenceExpression parts ++ "$"

/-- The number of items of an expression that a part stands for. -/
def Part.itemCount : Part → Nat
  | .char c => (bytesOf c).length
  | .trailing => 2
  | .choice branches => if allVoid branches then 0 else 1
  | _ => 1

/-- The number of items in a class that a range stands for: of characters with several bytes all
but the two that meet stand alone. -/
def rangeItemCount (range : Char × Char) : Nat :=
  if range.1 = range.2 then (bytesOf range.1).length
  else (bytesOf range.1).length + (bytesOf range.2).length - 1

def isSequence (parts : List Part) : Bool :=
  2 ≤ parts.foldl (fun count part => count + part.itemCount) 0

mutual

/-- How many repetitions, groups, alternatives, sequences and classes of a part lie in one
another. -/
def Part.nesting : Part → Nat
  | .char _ | .anyByte => 0
  | .anyBytes | .trailing => 1
  | .leading | .between => 4
  | .oneOf _ ranges =>
    if 2 ≤ ranges.foldl (fun count range => count + rangeItemCount range) 0 then 2 else 1
  | .choice branches =>
    if allVoid branches then 0
    else
      let several := 2 ≤ (branches.filter fun branch => !isVoid branch).length
      1 + (if several then 1 else 0) + branchNesting branches

/-- The nesting of the deepest of some parts. -/
def deepest : List Part → Nat
  | [] => 0
  | part :: rest => max part.nesting (deepest rest)

def branchNesting : List (List Part) → Nat
  | [] => 0
  | branch :: rest =>
    max (deepest branch + (if isSequence branch then 1 else 0)) (branchNesting rest)

end

/-- The nesting of the expression of a whole pattern, which is always a sequence. -/
def nesting (parts : List Part) : Nat := 1 + deepest parts

/-- The deepest nesting of an expression that can be used. -/
def nestingLimit : Nat := 250

def isTooDeep (parts : List Part) : Bool := nestingLimit < nesting parts

/-- What is told about a pattern that is nested too deep. -/
inductive Depth where
  /-- Its expression, if it stands alone. -/
  | alone (expression : String)
  /-- Its place among the patterns that are searched for together. -/
  | among (place : Nat)
deriving DecidableEq, Repr

def Depth.message : Depth → String
  | .alone expression => "error parsing glob '" ++ expression ++ "': error parsing pattern 0"
  | .among place => "error parsing pattern " ++ toString place

/-- The first fault of the nesting of some patterns. Those that are narrowed by an extension stand
alone and are looked at first. -/
def tooDeep? (patterns : List (List Part)) : Option Depth :=
  let thatAre (lookup : Lookup) := patterns.filter fun parts => Lookup.ofParts parts = lookup
  match (thatAre .narrowed).find? isTooDeep with
  | some parts => some (.alone (expression parts))
  | none => ((thatAre .expression).findIdx? isTooDeep).map Depth.among

end SourceAtlas.Glob
