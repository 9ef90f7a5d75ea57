/- How a pattern finds its paths. -/
import SourceAtlas.Glob.Pattern

namespace SourceAtlas.Glob

/-- What a pattern is compared with. Most patterns need no search through a path. -/
inductive Lookup where
  /-- The file name is fixed. -/
  | fileName
  /-- The whole path is fixed. -/
  | wholePath
  /-- The extension of the file name is fixed, and nothing else. -/
  | fileKind
  /-- The start of the path is fixed, and nothing else. -/
  | start
  /-- The end of the path is fixed, and nothing else. -/
  | ending
  /-- The extension is fixed, and an expression tells about the rest. -/
  | narrowed
  /-- An expression tells about the path. -/
  | expression
deriving DecidableEq, Repr

namespace Lookup

/-- Whether parts are characters only. -/
def isPlain (parts : List Part) : Bool := parts.all Part.isChar

def fixesFileName : List Part → Bool
  | .leading :: rest => !rest.isEmpty && isPlain rest && !rest.any Part.isSlash
  | _ => false

def fixesPath (parts : List Part) : Bool := !parts.isEmpty && isPlain parts

def fixesFileKind : List Part → Bool
  | .leading :: .anyBytes :: .char '.' :: rest | .anyBytes :: .char '.' :: rest =>
    isPlain rest && !rest.any Part.isDot && !rest.any Part.isSlash
  | _ => false

def fixesStart (parts : List Part) : Bool :=
  match parts.getLast? with
  | some .anyBytes => fixesPath parts.dropLast
  | some .trailing => isPlain parts.dropLast
  | _ => false

/-- A slash alone is no end to look for. -/
def fixesEnding : List Part → Bool
  | .leading :: .anyBytes :: [.char '/'] | .anyBytes :: [.char '/'] => false
  | .leading :: .anyBytes :: rest | .anyBytes :: rest | .leading :: rest => fixesPath rest
  | _ => false

/-- Whether parts end with a dot and other characters that are no slashes. -/
def fixesExtension (parts : List Part) : Bool :=
  let rest := parts.reverse.dropWhile fun part => part.isChar && !part.isSlash && !part.isDot
  rest.head?.any Part.isDot

/-- The first of the ways that fits. -/
def ofParts (parts : List Part) : Lookup :=
  if fixesFileName parts then .fileName
  else if fixesPath parts then .wholePath
  else if fixesFileKind parts then .fileKind
  else if fixesStart parts then .start
  else if fixesEnding parts then .ending
  else if fixesExtension parts then .narrowed
  else .expression

/-- Whether only paths with a file name are found. -/
def needsFileName : Lookup → Bool
  | .fileName | .fileKind | .narrowed => true
  | _ => false

end Lookup

end SourceAtlas.Glob
