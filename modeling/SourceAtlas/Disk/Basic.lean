/- A disk: one directory tree, and the paths that lead through it. -/
import SourceAtlas.Disk.Tree
import SourceAtlas.Path

namespace SourceAtlas

/-- Why an access to a disk fails. -/
inductive FileError where
  | notFound
  | alreadyExists
  | notDirectory
  | isDirectory
  | nameTooLong
  | tooManyLinks
  /-- A path with a null character names nothing. -/
  | nullCharacter
deriving DecidableEq, Repr

def FileError.message : FileError → String
  | .notFound => "No such file or directory (os error 2)"
  | .alreadyExists => "File exists (os error 17)"
  | .notDirectory => "Not a directory (os error 20)"
  | .isDirectory => "Is a directory (os error 21)"
  | .nameTooLong => "File name too long (os error 36)"
  | .tooManyLinks => "Too many levels of symbolic links (os error 40)"
  | .nullCharacter => "file name contained an unexpected NUL byte"

/-- The names that lead from the top of a disk to an entry. -/
abbrev Place : Type := List String

structure Disk where
  tree : FileTree
  /-- Where relative paths start. -/
  base : Place := []
deriving Inhabited

namespace Disk

def isAbsolute (path : String) : Bool := path.toList.head? == some '/'

/-- A path below a directory; an absolute one stays as it is. -/
def below (directory path : String) : String :=
  if isAbsolute path || directory = "" then path
  else if directory.toList.getLast? = some '/' then directory ++ path
  else directory ++ "/" ++ path

/-- The absolute path of a place. -/
def pathOf (place : Place) : String := "/" ++ Text.join "/" place

/-- The number of links that one path may go through. -/
def linkLimit : Nat := 40

/-- The number of bytes that one name may have. -/
def nameLimit : Nat := 255

/-- The number of bytes that a path may have. -/
def pathLimit : Nat := 4095

/-- Why no disk has an entry at a path, whatever is on it. -/
def unusable? (path : String) : Option FileError :=
  if path.toList.contains '\x00' then some .nullCharacter
  else if pathLimit < path.utf8ByteSize then some .nameTooLong
  else none

/-- The place that some steps lead to from another one. Links are followed, and the last step
may name a missing entry if it is to be created. -/
def walk (tree : FileTree) (creating : Bool) (links : Nat) (place : Place) (steps : List String) :
    Except FileError Place :=
  match steps with
  | [] => .ok place
  | step :: rest =>
    match tree.get? place with
    | some (.directory entries) =>
      if step = "" ∨ step = "." then walk tree creating links place rest
      else if step = ".." then walk tree creating links place.dropLast rest
      else if nameLimit < step.utf8ByteSize then .error .nameTooLong
      else match entries.lookup step with
        | none => if creating && rest.isEmpty then .ok (place ++ [step]) else .error .notFound
        | some (.link target) =>
          match links with
          | 0 => .error .tooManyLinks
          | links + 1 =>
            walk tree creating links (if isAbsolute target then [] else place)
              (Path.pieces target ++ rest)
        | some _ => walk tree creating links (place ++ [step]) rest
    | some _ => .error .notDirectory
    | none => .error .notFound
termination_by (links, steps.length)

/-- Where the steps of a path start. -/
def origin (disk : Disk) (path : String) : Place := if isAbsolute path then [] else disk.base

def follow (disk : Disk) (creating : Bool) (path : String) : Except FileError Place :=
  match unusable? path with
  | some fault => .error fault
  | none =>
    if path = "" then .error .notFound
    else walk disk.tree creating linkLimit (disk.origin path) (Path.pieces path)

/-- The place of an existing entry. -/
def locate (disk : Disk) (path : String) : Except FileError Place := disk.follow false path

/-- The tree at a path. -/
def find? (disk : Disk) (path : String) : Option FileTree :=
  match disk.locate path with
  | .ok place => disk.tree.get? place
  | .error _ => none

def has (disk : Disk) (path : String) : Bool := (disk.find? path).isSome

/-- The bytes of a file. -/
def read (disk : Disk) (path : String) : Except FileError ByteArray := do
  match disk.tree.get? (← disk.locate path) with
  | some (.file bytes) => .ok bytes
  | some (.directory _) => .error .isDirectory
  | _ => .error .notFound

/-- One step into a directory, which is made when it is missing. -/
def enter (tree : FileTree) (place : Place) (step : String) : Except FileError (FileTree × Place) :=
  if step = "" ∨ step = "." then .ok (tree, place)
  else if step = ".." then .ok (tree, place.dropLast)
  else if nameLimit < step.utf8ByteSize then .error .nameTooLong
  else match (tree.get? place).bind fun here => here.child? step with
    | none => .ok (tree.put (place ++ [step]) (.directory []), place ++ [step])
    | some (.directory _) => .ok (tree, place ++ [step])
    | some (.file _) => .error .notDirectory
    | some (.link _) =>
      match walk tree false linkLimit place [step] with
      | .ok target =>
        if (tree.get? target).any FileTree.isDirectory then .ok (tree, target)
        else .error .notDirectory
      | .error _ => .error .alreadyExists

/-- Steps into directories, up to the first one that fails. -/
def enterAll (tree : FileTree) (place : Place) : List String → FileTree × Except FileError Unit
  | [] => (tree, .ok ())
  | step :: rest =>
    match enter tree place step with
    | .ok (tree, place) => enterAll tree place rest
    | .error fault => (tree, .error fault)

/-- Makes the directories of a path that are missing. Those before one that cannot be made stay. -/
def makeDirectories (disk : Disk) (path : String) : Disk × Except FileError Unit :=
  match unusable? path with
  | some fault => (disk, .error fault)
  | none =>
    let (tree, outcome) := enterAll disk.tree (disk.origin path) (Path.pieces path)
    ({ disk with tree }, outcome)

/-- Writes a file, in the place of an older one if there is one. -/
def write (disk : Disk) (path : String) (bytes : ByteArray) : Except FileError Disk := do
  let place ← disk.follow true path
  if (disk.tree.get? place).any FileTree.isDirectory then .error .isDirectory
  else .ok { disk with tree := disk.tree.put place (.file bytes) }

/-- Makes an empty file unless there is one. -/
def touch (disk : Disk) (path : String) : Except FileError Disk := do
  match disk.tree.get? (← disk.follow true path) with
  | some (.file _) => .ok disk
  | _ => disk.write path .empty

/-- The place of an entry itself, also when it is a link. -/
def entryPlace (disk : Disk) (path : String) : Except FileError Place := do
  let steps := Path.pieces path
  return (← walk disk.tree false linkLimit (disk.origin path) steps.dropLast) ++
    steps.getLast?.toList

/-- Puts an entry at a path whose directory exists. -/
def attach (disk : Disk) (path : String) (entry : FileTree) : Except FileError Disk := do
  return { disk with tree := disk.tree.put (← disk.entryPlace path) entry }

/-- The disk without an entry and what is below it; `none` when there is no such entry. -/
def remove? (disk : Disk) (path : String) : Option Disk :=
  match disk.entryPlace path with
  | .ok place =>
    if (disk.tree.get? place).isSome then some { disk with tree := disk.tree.erase place } else none
  | .error _ => none

end Disk

end SourceAtlas
