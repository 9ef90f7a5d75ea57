/- Path patterns and the faults of their texts. -/

namespace SourceAtlas.Glob

/-- A piece of a pattern. Paths are matched byte by byte, and a slash is a byte like others. -/
inductive Part where
  | char (c : Char)
  | anyByte
  | anyBytes
  /-- Any directories before the rest of the pattern, or none. -/
  | leading
  /-- Anything below a directory. -/
  | trailing
  /-- A slash, or any directories between two slashes. -/
  | between
  /-- One byte in, or outside, ranges of characters. -/
  | oneOf (negated : Bool) (ranges : List (Char × Char))
  /-- One of several alternatives. -/
  | choice (branches : List (List Part))
deriving Repr

def Part.isChar : Part → Bool
  | .char _ => true
  | _ => false

def Part.isSlash : Part → Bool
  | .char '/' => true
  | _ => false

def Part.isDot : Part → Bool
  | .char '.' => true
  | _ => false

/-- Why a text is no pattern. -/
inductive Fault where
  | unclosedClass
  | invalidRange (low high : Char)
  | unclosedGroup
  | unopenedGroup
  | danglingEscape
deriving DecidableEq, Repr

def Fault.message : Fault → String
  | .unclosedClass => "unclosed character class; missing ']'"
  | .invalidRange low high => "invalid range; '" ++ low.toString ++ "' > '" ++ high.toString ++ "'"
  | .unclosedGroup =>
    "unclosed alternate group; missing '\x7d' (maybe escape '\x7b' with '[\x7b]'?)"
  | .unopenedGroup =>
    "unopened alternate group; missing '\x7b' (maybe escape '\x7d' with '[\x7d]'?)"
  | .danglingEscape => "dangling '\\'"

end SourceAtlas.Glob
