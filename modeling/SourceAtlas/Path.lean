/- Repository-relative paths as text, and their lexical parts. -/
import SourceAtlas.Text.Affix

namespace SourceAtlas.Path

/-- Path text without any leading current-directory steps. -/
def dropHere : List Char → List Char
  | '.' :: '/' :: rest => dropHere rest
  | path => path

/-- A path with forward slashes only and no leading current-directory step. -/
def normalize (path : String) : String :=
  String.ofList (dropHere (Text.replaceChar '\\' '/' path).toList)

/-- The parts of a path between slashes, empty ones included. -/
def pieces (path : String) : List String :=
  Text.split '/' path

/-- The part after the last slash. -/
def basename (path : String) : String :=
  ((Text.cutLast? '/' path).map Prod.snd).getD path

/-- The part before the last slash; empty when there is none. -/
def parent (path : String) : String :=
  ((Text.cutLast? '/' path).map Prod.fst).getD ""

/-- The named steps of a path: empty parts and current-directory steps say nothing. -/
def steps (path : String) : List String :=
  (pieces path).filter fun part => part != "" && part != "."

/-- The name of the file a path leads to; a path that climbs last names none. -/
def fileName? (path : String) : Option String :=
  match (steps path).getLast? with
  | some name => if name = ".." then none else some name
  | none => none

/-- The directory of the entry a path leads to, with as few slashes as possible; empty when the path
has a single step. -/
def directoryOf (path : String) : String :=
  let steps := match pieces path with
    | "." :: rest => "." :: rest.filter fun part => part != "" && part != "."
    | parts => parts.filter fun part => part != "" && part != "."
  let directory := Text.join "/" steps.dropLast
  if path.toList.head? = some '/' then "/" ++ directory else directory

/-- What follows the last dot of a file name, unless that dot is its first character. -/
def extensionOf? (name : String) : Option String :=
  match Text.cutLast? '.' name with
  | some (stem, extension) => if stem = "" then none else some extension
  | none => none

/-- The extension of the file a path leads to. -/
def extension? (path : String) : Option String :=
  (fileName? path).bind extensionOf?

/-- One step from a directory: an empty or current-directory step stays, a parent step
removes the last segment if there is one, and a name is appended. -/
def advance (directory : List String) (step : String) : List String :=
  if step = "" ∨ step = "." then directory
  else if step = ".." then directory.dropLast
  else directory ++ [step]

/-- The lexical join of a directory and a relative path.
Climbing above the top of the directory has no effect. -/
def joinRelative (base relative : String) : String :=
  Text.join "/" ((pieces relative).foldl advance ((pieces base).filter (· ≠ "")))

end SourceAtlas.Path
