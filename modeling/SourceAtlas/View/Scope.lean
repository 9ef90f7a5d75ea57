/- The part of an index that belongs to one top-level directory. -/
import SourceAtlas.Error
import SourceAtlas.Index.Basic
import SourceAtlas.Text.Blank

namespace SourceAtlas

inductive Scope where
  | full
  /-- The files of one top-level directory; the root group has those in none. -/
  | group (name : String)
deriving DecidableEq, Repr

/-- The scope that a text asks for. -/
def Scope.parse (text : String) : Except AtlasError Scope :=
  let text := Text.trim text
  if text = "" ∨ text = "full" then .ok .full
  else match Text.dropStart? "group:" text with
    | some name => if name = "" then .error (.invalidScope text) else .ok (.group name)
    | none => .error (.invalidScope text)

/-- Some nodes and edges of an index. -/
structure GraphView where
  nodes : List SymbolNode
  edges : List GraphEdge
deriving DecidableEq

namespace GraphView

def ofIndex (index : RepoIndex) : GraphView := ⟨index.nodes.values, index.edges⟩

/-- Whether a path belongs to a group. -/
def inGroup (group path : String) : Bool :=
  if group = Contents.rootGroup then !path.toList.contains '/'
  else Text.startsWith path (group ++ "/")

/-- The ids of the nodes that lie in the files of a group. -/
def located (index : RepoIndex) (group : String) : TextSet :=
  index.nodes.values.foldl
    (fun ids node => if (node.filePath?).any (inGroup group) then ids.insert node.id else ids) ∅

/-- The external node at the other end of an edge that leaves a set of nodes. -/
def neighbour? (index : RepoIndex) (ids : TextSet) (edge : GraphEdge) : Option String :=
  let isExternal (id : String) : Bool := (index.nodes[id]?).any SymbolNode.isExternal
  if ids.contains edge.source && !ids.contains edge.target && isExternal edge.target then
    some edge.target
  else if ids.contains edge.target && !ids.contains edge.source && isExternal edge.source then
    some edge.source
  else none

/-- The nodes and edges of an index that stay inside a set of ids. -/
def restrict (index : RepoIndex) (ids : TextSet) : GraphView where
  nodes := index.nodes.values.filter fun node => ids.contains node.id
  edges := index.edges.filter fun edge => ids.contains edge.source && ids.contains edge.target

/-- The nodes in the files of a scope and the external nodes next to them. A group without
any node gives the whole graph. -/
def ofScope (index : RepoIndex) : Scope → GraphView
  | .full => ofIndex index
  | .group name =>
    let ids := located index name
    if ids.isEmpty then ofIndex index
    else restrict index ((index.edges.filterMap (neighbour? index ids)).foldl
      (fun ids id => ids.insert id) ids)

end GraphView

end SourceAtlas
