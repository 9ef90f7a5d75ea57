/- What the front-ends of all languages share: their files, their passes, and links made once. -/
import SourceAtlas.Graph.Script
import SourceAtlas.Outline.Declaration

namespace SourceAtlas

/-- The passes over all files. Each is complete for every file before the next begins. -/
inductive Pass where
  | files
  | definitions
  | imports
  | relations
deriving DecidableEq, Repr

def Pass.all : List Pass := [.files, .definitions, .imports, .relations]

/-- One file of a front-end: its path, the namespace of its module and its outline. -/
structure SourceUnit (α : Type) where
  path : String
  module : String
  outline : α
deriving DecidableEq, Repr

namespace SourceUnit

variable {α : Type}

def fileId (unit : SourceUnit α) : String := Identifier.file unit.path

/-- The id of a top-level declaration. -/
def symbolId (unit : SourceUnit α) (name : String) : String :=
  Identifier.symbol (Identifier.qualify unit.module name)

/-- The id of a member of a top-level declaration. -/
def memberId (unit : SourceUnit α) (owner name : String) : String :=
  Identifier.symbol (Identifier.qualify (Identifier.qualify unit.module owner) name)

/-- A file becomes a node and gives its module a home. -/
def fileSteps (unit : SourceUnit α) : List Step :=
  [.declare (fileNode unit.path unit.module), .register (.file unit.module unit.path unit.fileId)]

/-- A top-level declaration becomes a node of its file and a symbol of its module. -/
def symbolSteps (unit : SourceUnit α) (declaration : Declaration) (kind : NodeKind) : List Step :=
  let id := unit.symbolId declaration.name
  Step.contain unit.fileId (declaration.toNode id kind unit.module) ++
    [.register (.symbol unit.module declaration.name id (kind == .class))]

/-- A member of a type becomes a node below the type and one of its methods. -/
def methodSteps (unit : SourceUnit α) (ownerId ownerName : String) (declaration : Declaration) :
    List Step :=
  let id := unit.memberId ownerName declaration.name
  Step.contain ownerId (declaration.toNode id .method unit.module) ++
    [.register (.method ownerId declaration.name id)]

end SourceUnit

/-- The steps for the bases of a type: an edge for each, and a record of those in the repository. -/
def baseSteps (typeId : String) (resolutions : List Resolution) : List Step :=
  (resolutions.flatMap fun resolution => Step.link typeId resolution .inherits) ++
    [.register (.bases typeId (resolutions.filterMap Resolution.nodeId?))]

/-- What one import does: it leads somewhere, or it gives a local name a meaning. -/
inductive ImportEffect where
  | reach (resolution : Resolution)
  | bind (module localName : String) (binding : ImportBinding)
deriving DecidableEq, Repr

/-- The steps of a file's imports. A target that the file reached before makes no second edge. -/
def importSteps (source : String) : List String → List ImportEffect → List Step
  | _, [] => []
  | reached, .bind module localName binding :: rest =>
    .register (.binding module localName binding) :: importSteps source reached rest
  | reached, .reach resolution :: rest =>
    let target := resolution.target.id
    if target ∈ reached then importSteps source reached rest
    else Step.link source resolution .imports ++ importSteps source (target :: reached) rest

end SourceAtlas
