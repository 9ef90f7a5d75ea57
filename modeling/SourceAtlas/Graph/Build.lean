/- The symbol graph of a list of source files. -/
import SourceAtlas.Index.Basic
import SourceAtlas.Linking.JavaScript
import SourceAtlas.Linking.Python
import SourceAtlas.Linking.Swift

namespace SourceAtlas

/-- One value for each language family. -/
structure PerFamily (α : Type) where
  python : α
  javaScript : α
  swift : α
deriving DecidableEq

namespace PerFamily

variable {α : Type}

def get (values : PerFamily α) : Family → α
  | .python => values.python
  | .javaScript => values.javaScript
  | .swift => values.swift

def set (values : PerFamily α) (value : α) : Family → PerFamily α
  | .python => { values with python := value }
  | .javaScript => { values with javaScript := value }
  | .swift => { values with swift := value }

end PerFamily

/-- The graph under construction and the symbol tables of every family. -/
structure Workspace where
  graph : CodeGraph
  tables : PerFamily SymbolTables
deriving DecidableEq

def Workspace.empty : Workspace := ⟨{}, ⟨{}, {}, {}⟩⟩

/-- The scripts of every family and pass. -/
abbrev Frontends : Type := Family → Pass → List Script

namespace Frontends

variable {α : Type}

/-- The files of one family with their outlines. -/
def units (moduleName : SourceFile → String) (outline : SourceFile → α) (family : Family)
    (files : List SourceFile) : List (SourceUnit α) :=
  (files.filter fun file => file.family == family).map fun file =>
    ⟨file.path, moduleName file, outline file⟩

/-- The front-ends over a list of files, given the namespace of each. -/
def ofFiles (moduleName : SourceFile → String) (files : List SourceFile) : Frontends
  | .python => Python.scripts (units moduleName Python.Outline.ofFile .python files)
  | .javaScript => JavaScript.scripts (units moduleName JavaScript.Outline.ofFile .javaScript files)
  | .swift => Swift.scripts (units moduleName Swift.Outline.ofFile .swift files)

end Frontends

namespace Workspace

/-- Carry out one pass of one family. -/
def runPass (workspace : Workspace) (frontends : Frontends) (family : Family) (pass : Pass) :
    Progress Workspace :=
  let progress := Draft.perform ⟨workspace.graph, workspace.tables.get family⟩
    (frontends family pass)
  ⟨⟨progress.state.graph, workspace.tables.set progress.state.tables family⟩, progress.fault⟩

/-- Carry out passes in order, up to the first that fails. -/
def runPasses (workspace : Workspace) (frontends : Frontends) (passes : List (Pass × Family)) :
    Progress Workspace :=
  passes.foldl
    (fun progress pass => progress.andThen
      (fun state (pass, family) => state.runPass frontends family pass) pass)
    ⟨workspace, none⟩

end Workspace

/-- Every family completes a pass before any family starts the next. -/
def passOrder : List (Pass × Family) :=
  Pass.all.flatMap fun pass => Family.all.map fun family => (pass, family)

/-- A finished graph with its table of contents. -/
structure GraphResult where
  nodes : TextMap SymbolNode
  edges : List GraphEdge
  toc : List TocEntry
deriving DecidableEq

/-- The namespace of each file among all files. -/
def moduleNames (files : List SourceFile) : SourceFile → String :=
  let names := Namespace.ofPaths (files.map SourceFile.path)
  fun file => names.getD file.path file.module

/-- The workspace that all passes over a list of files lead to. -/
def buildWorkspace (files : List SourceFile) : Progress Workspace :=
  Workspace.empty.runPasses (Frontends.ofFiles (moduleNames files) files) passOrder

/-- The symbol graph of a list of files. -/
def buildGraph (files : List SourceFile) : Except MissingEndpoint GraphResult :=
  let progress := buildWorkspace files
  match progress.fault with
  | some fault => .error fault
  | none => .ok
    { nodes := progress.state.graph.nodes
      edges := progress.state.graph.edges.toList
      toc := Contents.ofPaths (files.map SourceFile.path) }

end SourceAtlas
