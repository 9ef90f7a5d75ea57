/- Construction of a graph as a list of elementary steps, which a front-end computes from the
symbol tables and a draft carries out. -/
import SourceAtlas.Graph.Basic
import SourceAtlas.Tables

namespace SourceAtlas

/-- One elementary step of construction. -/
inductive Step where
  /-- Insert a node or replace the one with its id. -/
  | declare (node : SymbolNode)
  /-- Insert a node and contain it in another, unless its id is taken. -/
  | adopt (node : SymbolNode) (container : String) (confidence : Confidence)
  /-- Make sure that a name outside the repository has a node. -/
  | mention (name : String)
  /-- Join two existing nodes. -/
  | connect (edge : GraphEdge)
  /-- Enter something into the symbol tables. -/
  | register (entry : Registration)
deriving DecidableEq, Repr

/-- The steps that join a node to what a reference resolved to. -/
def Step.link (source : String) (resolution : Resolution) (kind : EdgeKind) : List Step :=
  match resolution.target with
  | .node _ => [.connect (resolution.edge source kind)]
  | .external name => [.mention name, .connect (resolution.edge source kind)]

/-- A declared node together with the edge from what contains it. -/
def Step.contain (container : String) (node : SymbolNode) : List Step :=
  [.declare node, .connect ⟨container, node.id, .contains, .high⟩]

/-- The steps that follow from the symbol tables as they are when the script starts. -/
abbrev Script : Type := SymbolTables → List Step

/-- Steps that no table has a say in. -/
def Script.fixed (steps : List Step) : Script := fun _ => steps

/-- The graph under construction with the symbol tables of one language family. -/
structure Draft where
  graph : CodeGraph := {}
  tables : SymbolTables := {}
deriving DecidableEq

instance : Inhabited Draft := ⟨{}⟩

/-- How far construction came: everything, or up to an edge with a missing end. -/
structure Progress (α : Type) where
  state : α
  fault : Option MissingEndpoint := none
deriving DecidableEq

/-- Construction goes on only when nothing went wrong. -/
def Progress.andThen {α β : Type} (progress : Progress α) (resume : α → β → Progress α) (next : β) :
    Progress α :=
  match progress.fault with
  | none => resume progress.state next
  | some _ => progress

namespace Draft

def connect (draft : Draft) (edge : GraphEdge) : Progress Draft :=
  match draft.graph.connect edge with
  | .ok graph => ⟨{ draft with graph }, none⟩
  | .error fault => ⟨draft, some fault⟩

/-- Carry out one step. What was done before a missing end was met stays. -/
def apply (draft : Draft) : Step → Progress Draft
  | .declare node => ⟨{ draft with graph := draft.graph.insert node }, none⟩
  | .adopt node container confidence =>
    if draft.graph.contains node.id then ⟨draft, none⟩
    else connect { draft with graph := draft.graph.insert node }
      ⟨container, node.id, .contains, confidence⟩
  | .mention name => ⟨{ draft with graph := draft.graph.ensureExternal name }, none⟩
  | .connect edge => draft.connect edge
  | .register entry => ⟨{ draft with tables := draft.tables.record entry }, none⟩

/-- Carry out steps in order, up to the first that fails. -/
def run (draft : Draft) (steps : List Step) : Progress Draft :=
  steps.foldl (fun progress step => progress.andThen apply step) ⟨draft, none⟩

/-- Carry out scripts in order; each sees the tables that the earlier ones left. -/
def perform (draft : Draft) (scripts : List Script) : Progress Draft :=
  scripts.foldl (fun progress script =>
    progress.andThen (fun draft script => draft.run (script draft.tables)) script)
    ⟨draft, none⟩

end Draft

end SourceAtlas
