/- The symbol graph under construction. -/
import SourceAtlas.Resolution
import SourceAtlas.Symbol
import SourceAtlas.TextMap

namespace SourceAtlas

/-- Nodes by id, and edges in the order in which they were made. -/
structure CodeGraph where
  nodes : TextMap SymbolNode := ∅
  edges : Array GraphEdge := #[]
deriving DecidableEq

/-- An edge was asked for between nodes of which one does not exist. -/
inductive MissingEndpoint where
  | source (id : String)
  | target (id : String)
deriving DecidableEq, Repr

def MissingEndpoint.message : MissingEndpoint → String
  | .source id => "edge source " ++ id ++ " missing"
  | .target id => "edge target " ++ id ++ " missing"

/-- The node of a source file. -/
def fileNode (path module : String) : SymbolNode where
  id := Identifier.file path
  name := path
  kind := .file
  summary := ""
  signature := none
  docstring := none
  location := some (.ofFile path)
  module := some module

/-- The node that stands for a name outside the repository. -/
def externalNode (name : String) : SymbolNode where
  id := Identifier.external name
  name := name
  kind := .external
  summary := ""
  signature := none
  docstring := none
  location := none
  module := none

/-- The id of the node that a reference leads to. -/
def Target.id : Target → String
  | .node id => id
  | .external name => Identifier.external name

/-- The edge that a resolved reference makes. -/
def Resolution.edge (resolution : Resolution) (source : String) (kind : EdgeKind) : GraphEdge :=
  ⟨source, resolution.target.id, kind, resolution.confidence⟩

namespace CodeGraph

instance : Inhabited CodeGraph := ⟨{}⟩

def contains (graph : CodeGraph) (id : String) : Bool := (graph.nodes[id]?).isSome

/-- A node is stored under its own id and replaces an earlier one. -/
def insert (graph : CodeGraph) (node : SymbolNode) : CodeGraph :=
  { graph with nodes := graph.nodes.insert node.id node }

/-- The external node of a name is made once. -/
def ensureExternal (graph : CodeGraph) (name : String) : CodeGraph :=
  if graph.contains (Identifier.external name) then graph else graph.insert (externalNode name)

/-- An edge joins existing nodes only; the source is looked at first. -/
def connect (graph : CodeGraph) (edge : GraphEdge) : Except MissingEndpoint CodeGraph :=
  if !graph.contains edge.source then .error (.source edge.source)
  else if !graph.contains edge.target then .error (.target edge.target)
  else .ok { graph with edges := graph.edges.push edge }

end CodeGraph

end SourceAtlas
