/- Which paths a pattern matches. -/
import SourceAtlas.Glob.Lookup
import SourceAtlas.Path

namespace SourceAtlas.Glob

/-- The places of a text that a part of a pattern may have reached: before its first byte,
after it, and so on up to its end. -/
abbrev Reach : Type := List Bool

namespace Reach

/-- Only the start of a text. -/
def start (text : List UInt8) : Reach := true :: text.map fun _ => false

def nowhere (text : List UInt8) : Reach := false :: text.map fun _ => false

def union (a b : Reach) : Reach := List.zipWith (· || ·) a b

/-- One byte further, over bytes that satisfy a test. -/
def step (test : UInt8 → Bool) (text : List UInt8) (reach : Reach) : Reach :=
  false :: List.zipWith (fun here byte => here && test byte) reach text

/-- Any number of bytes further. -/
def spread (reach : Reach) : Reach := go false reach
where
  go (seen : Bool) : Reach → Reach
    | [] => []
    | here :: rest => (seen || here) :: go (seen || here) rest

def slash (text : List UInt8) (reach : Reach) : Reach := step (· == '/'.toUInt8) text reach

def isAtEnd (reach : Reach) : Bool := reach.getLastD false

end Reach

def bytesOf (c : Char) : List UInt8 := c.toString.toUTF8.toList

/-- Whether a byte lies in a range of characters. Of a character with several bytes each counts
on its own, and the range goes from the last byte of its low end to the first of its high end. -/
def inRange (byte : UInt8) (range : Char × Char) : Bool :=
  let low := bytesOf range.1
  if range.1 = range.2 then low.contains byte
  else
    let high := bytesOf range.2
    low.dropLast.contains byte || high.tail.contains byte
      || low.getLastD 0 ≤ byte && byte ≤ high.headD 0

def inClass (negated : Bool) (ranges : List (Char × Char)) (byte : UInt8) : Bool :=
  ranges.any (inRange byte) != negated

mutual

/-- Whether a part matches the empty text only, because all of its alternatives are empty. -/
def Part.isVoid : Part → Bool
  | .choice branches => allVoid branches
  | _ => false

def isVoid : List Part → Bool
  | [] => true
  | part :: rest => part.isVoid && isVoid rest

def allVoid : List (List Part) → Bool
  | [] => true
  | branch :: rest => isVoid branch && allVoid rest

end

mutual

/-- The places that a part leads to. Empty alternatives do not count. -/
def Part.advance (text : List UInt8) : Part → Reach → Reach
  | .char c, reach => (bytesOf c).foldl (fun reach byte => reach.step (· == byte) text) reach
  | .anyByte, reach => reach.step (fun _ => true) text
  | .anyBytes, reach => reach.spread
  | .leading, reach => reach.union (reach.spread.slash text)
  | .trailing, reach => (reach.slash text).spread
  | .between, reach =>
    let inside := reach.slash text
    inside.union (inside.spread.slash text)
  | .oneOf negated ranges, reach => reach.step (inClass negated ranges) text
  | .choice branches, reach => if allVoid branches then reach else advanceAny text branches reach

def advance (text : List UInt8) : List Part → Reach → Reach
  | [], reach => reach
  | part :: rest, reach => advance text rest (part.advance text reach)

def advanceAny (text : List UInt8) : List (List Part) → Reach → Reach
  | [], _ => .nowhere text
  | branch :: rest, reach =>
    if isVoid branch then advanceAny text rest reach
    else (advance text branch reach).union (advanceAny text rest reach)

end

/-- Whether the parts match a whole text. -/
def matchesText (parts : List Part) (text : List UInt8) : Bool :=
  match parts with
  | [.leading] => true
  | parts => (advance text parts (.start text)).isAtEnd

/-- Whether a path ends with a step to the parent directory. Such a path has no file name. -/
def endsWithParent (path : String) : Bool :=
  Path.basename path == ".."

/-- Whether a pattern matches a path. -/
def matchesPath (parts : List Part) (path : String) : Bool :=
  matchesText parts path.toUTF8.toList
    && !((Lookup.ofParts parts).needsFileName && endsWithParent path)

end SourceAtlas.Glob
