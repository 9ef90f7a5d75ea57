/- Directory trees. -/

namespace SourceAtlas

inductive FileTree where
  | file (bytes : ByteArray)
  /-- A name for the path that it holds. -/
  | link (target : String)
  /-- Entries in the order of their names. -/
  | directory (entries : List (String × FileTree))
deriving Inhabited

namespace FileTree

def isDirectory : FileTree → Bool
  | .directory _ => true
  | _ => false

def isFile : FileTree → Bool
  | .file _ => true
  | _ => false

def child? (tree : FileTree) (name : String) : Option FileTree :=
  match tree with
  | .directory entries => entries.lookup name
  | _ => none

/-- The tree below some names, each an entry of the directory before it. -/
def get? (tree : FileTree) : List String → Option FileTree
  | [] => some tree
  | name :: rest => (tree.child? name).bind fun child => child.get? rest

/-- Entries with one entry more, or with a new tree under its name. -/
def insertEntry (name : String) (tree : FileTree) :
    List (String × FileTree) → List (String × FileTree)
  | [] => [(name, tree)]
  | (other, old) :: rest =>
    match compare name other with
    | .lt => (name, tree) :: (other, old) :: rest
    | .eq => (name, tree) :: rest
    | .gt => (other, old) :: insertEntry name tree rest

/-- The tree with an entry put below some names; directories that are missing are made. -/
def put : FileTree → List String → FileTree → FileTree
  | _, [], entry => entry
  | .directory entries, name :: rest, entry =>
    .directory (insertEntry name (((entries.lookup name).getD (.directory [])).put rest entry)
      entries)
  | tree, _ :: _, _ => tree

/-- The tree without the entry below some names. -/
def erase : FileTree → List String → FileTree
  | .directory entries, [name] => .directory (entries.filter fun (other, _) => other != name)
  | .directory entries, name :: rest =>
    match entries.lookup name with
    | some child => .directory (insertEntry name (child.erase rest) entries)
    | none => .directory entries
  | tree, _ => tree

end FileTree

end SourceAtlas
