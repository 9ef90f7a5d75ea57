/- External nodes folded into one node for the file that alone refers to them. -/
import SourceAtlas.View.Scope
import SourceAtlas.Path

namespace SourceAtlas

/-- What is known of the neighbours of an external node: all lie in one file, or they do not.
An external neighbour or one without a file counts as lying elsewhere. -/
inductive Surroundings where
  | home (path : String)
  | mixed
deriving DecidableEq, Repr

def Surroundings.join : Surroundings → Surroundings → Surroundings
  | .home first, .home second => if first = second then .home first else .mixed
  | _, _ => .mixed

/-- The external nodes that were folded for one file. -/
structure ExternalGroup where
  id : String
  filePath : String
  names : TextSet
deriving DecidableEq

structure CollapsedGraph where
  nodes : List SymbolNode
  edges : List GraphEdge
  groups : List ExternalGroup
deriving DecidableEq

namespace Collapse

/-- The nodes by id; of nodes with the same id the last counts. -/
def byId (nodes : List SymbolNode) : TextMap SymbolNode :=
  nodes.foldl (fun map node => map.insert node.id node) ∅

def isExternal (nodes : TextMap SymbolNode) (id : String) : Bool :=
  (nodes[id]?).any SymbolNode.isExternal

/-- What an edge to a node says about the other end. -/
def surroundingsOf (nodes : TextMap SymbolNode) (id : String) : Surroundings :=
  if isExternal nodes id then .mixed
  else match (nodes[id]?).bind SymbolNode.filePath? with
    | some path => .home path
    | none => .mixed

/-- What one edge says about the external nodes at its ends. -/
def observations (nodes : TextMap SymbolNode) (edge : GraphEdge) : List (String × Surroundings) :=
  (if isExternal nodes edge.source then [(edge.source, surroundingsOf nodes edge.target)]
    else []) ++
    if isExternal nodes edge.target then [(edge.target, surroundingsOf nodes edge.source)] else []

/-- All that the edges say about each external node. -/
def surroundings (nodes : TextMap SymbolNode) (edges : List GraphEdge) : TextMap Surroundings :=
  (edges.flatMap (observations nodes)).foldl
    (fun map (id, seen) =>
      map.insert id (match map[id]? with
        | some known => known.join seen
        | none => seen))
    ∅

/-- The file that each folded external node belongs to. -/
def homes (nodes : TextMap SymbolNode) (edges : List GraphEdge) : TextMap String :=
  (surroundings nodes edges).toList.foldl
    (fun map (id, known) =>
      match known with
      | .home path => map.insert id path
      | .mixed => map)
    ∅

def groupId (path : String) : String := "external-group:" ++ path

/-- The groups in order of their files. -/
def groups (nodes : TextMap SymbolNode) (homes : TextMap String) : List ExternalGroup :=
  let names := homes.toList.foldl
    (fun (map : TextMap TextSet) (id, path) =>
      let known := map.getD path ∅
      map.insert path (match nodes[id]? with
        | some node => known.insert node.name
        | none => known))
    ∅
  names.toList.map fun (path, names) => ⟨groupId path, path, names⟩

/-- The node that stands for a group. -/
def groupNode (group : ExternalGroup) : SymbolNode :=
  let count := group.names.size
  let name := Path.basename group.filePath
  { id := group.id
    name := "External dependencies - " ++ (if name = "" then group.filePath else name)
    kind := .external
    summary := toString count ++ " external symbol" ++ (if count = 1 then "" else "s")
    signature := none
    docstring := none
    location := some (.ofFile group.filePath)
    module := none }

/-- The group of a folded node, and any other node itself. -/
def moved (homes : TextMap String) (id : String) : String :=
  match homes[id]? with
  | some path => groupId path
  | none => id

/-- Edges with folded ends moved to their groups. A moved edge is kept once; `made` are the
ones made before. Other edges stay as they are. -/
def moveEdges (homes : TextMap String) (made : List GraphEdge) : List GraphEdge → List GraphEdge
  | [] => []
  | edge :: rest =>
    if homes[edge.source]?.isNone && homes[edge.target]?.isNone then
      edge :: moveEdges homes made rest
    else
      let edge := { edge with source := moved homes edge.source, target := moved homes edge.target }
      if edge ∈ made then moveEdges homes made rest else edge :: moveEdges homes (edge :: made) rest

end Collapse

/-- Fold every external node whose neighbours all lie in one file into a group for that file.
External nodes next to another external node or to several files stay. -/
def collapseExternals (view : GraphView) : CollapsedGraph :=
  let nodes := Collapse.byId view.nodes
  let homes := Collapse.homes nodes view.edges
  let groups := Collapse.groups nodes homes
  { nodes := (view.nodes.filter fun node => homes[node.id]?.isNone) ++ groups.map Collapse.groupNode
    edges := Collapse.moveEdges homes [] view.edges
    groups }

end SourceAtlas
