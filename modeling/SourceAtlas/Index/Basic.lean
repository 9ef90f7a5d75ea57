/- The index of a repository: its symbol graph with what is known about its making, and its table of
contents, in which files are grouped by top-level directory. -/
import SourceAtlas.Symbol
import SourceAtlas.Text.Affix
import SourceAtlas.TextMap

namespace SourceAtlas

structure TocEntry where
  id : String
  title : String
  summary : String
  scope : String
deriving DecidableEq, Repr, Inhabited

namespace Contents

/-- The group of the files that lie in no directory. -/
def rootGroup : String := "root"

/-- The top-level directory of a path, or the root group. -/
def groupOf (path : String) : String :=
  match Text.cutFirst? '/' path with
  | some (first, _) => first
  | none => rootGroup

def entry (group : String) (count : Nat) : TocEntry where
  id := "group:" ++ group
  title := if group = rootGroup then "Root files" else "Package: " ++ group
  summary := toString count ++ " files"
  scope := "group:" ++ group

/-- One entry for each group, the root group first and the others by name. -/
def ofPaths (paths : List String) : List TocEntry :=
  let counts := (TextMap.tally (paths.map groupOf)).toList
  let (root, others) := counts.partition fun (group, _) => group == rootGroup
  (root ++ others).map fun (group, count) => entry group count

end Contents

structure RepoIndex where
  repoId : String
  rootPath : String
  commit : Option String
  /-- Nodes under their ids. -/
  nodes : TextMap SymbolNode
  edges : List GraphEdge
  toc : List TocEntry
  warnings : List Warning
  stats : TextMap UInt64
  contentSignature : Option String
  /-- Seconds since the start of 1970. -/
  generatedAt : Float
deriving DecidableEq

instance : Inhabited RepoIndex := ⟨⟨"", "", none, ∅, [], [], [], ∅, none, 0.0⟩⟩

/-- An index that holds nothing but a graph. -/
def RepoIndex.ofGraph (nodes : TextMap SymbolNode) (edges : List GraphEdge) : RepoIndex :=
  { (default : RepoIndex) with nodes, edges }

end SourceAtlas
