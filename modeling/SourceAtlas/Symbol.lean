/- Nodes and edges of the symbol graph, and the stable identifiers of nodes. -/

namespace SourceAtlas

namespace Identifier

def file (path : String) : String := "file:" ++ path

def symbol (qualifiedName : String) : String := "symbol:" ++ qualifiedName

def external (name : String) : String := "external:" ++ name

def blueprint (variableName : String) : String := "blueprint:" ++ variableName

/-- A name inside a module; the root module has the empty name and adds nothing. -/
def qualify (module name : String) : String :=
  if module = "" then name else module ++ "." ++ name

end Identifier

inductive NodeKind where
  | file : NodeKind
  | class : NodeKind
  | function : NodeKind
  | method : NodeKind
  | blueprint : NodeKind
  | external : NodeKind
deriving DecidableEq, Repr, Inhabited

inductive EdgeKind where
  | contains
  | imports
  | calls
  | inherits
  | blueprint
deriving DecidableEq, Repr, Inhabited

/-- How a reference was resolved. Not a probability: a tag of the rule that applied. -/
inductive Confidence where
  | low
  | medium
  | high
deriving DecidableEq, Repr, Inhabited

def NodeKind.name : NodeKind → String
  | .file => "file"
  | .class => "class"
  | .function => "function"
  | .method => "method"
  | .blueprint => "blueprint"
  | .external => "external"

def NodeKind.all : List NodeKind := [.file, .class, .function, .method, .blueprint, .external]

def EdgeKind.name : EdgeKind → String
  | .contains => "contains"
  | .imports => "imports"
  | .calls => "calls"
  | .inherits => "inherits"
  | .blueprint => "blueprint"

def EdgeKind.all : List EdgeKind := [.contains, .imports, .calls, .inherits, .blueprint]

def Confidence.name : Confidence → String
  | .low => "low"
  | .medium => "medium"
  | .high => "high"

def Confidence.all : List Confidence := [.low, .medium, .high]

/-- Confidence from the weakest to the strongest. -/
def Confidence.rank : Confidence → Nat
  | .low => 0
  | .medium => 1
  | .high => 2

/-- The stronger of two tags. -/
def Confidence.max (a b : Confidence) : Confidence :=
  if a.rank < b.rank then b else a

/-- A range of a source file. Lines count from one and columns are bytes from zero;
a line of zero means that the whole file is meant. -/
structure SourceLocation where
  path : String
  startLine : UInt64
  endLine : UInt64
  startColumn : UInt64
  endColumn : UInt64
deriving DecidableEq, Repr, Inhabited

/-- The location of a file as a whole. -/
def SourceLocation.ofFile (path : String) : SourceLocation := ⟨path, 0, 0, 0, 0⟩

structure SymbolNode where
  id : String
  name : String
  kind : NodeKind
  summary : String
  signature : Option String
  docstring : Option String
  location : Option SourceLocation
  module : Option String
deriving DecidableEq, Repr, Inhabited

namespace SymbolNode

/-- The file in which a node lies; an empty path is no file. -/
def filePath? (node : SymbolNode) : Option String :=
  (node.location.map SourceLocation.path).filter (· ≠ "")

/-- The first line of a node; zero when it has no location. -/
def startLine (node : SymbolNode) : UInt64 :=
  match node.location with
  | some location => location.startLine
  | none => 0

def isExternal (node : SymbolNode) : Bool := node.kind == .external

end SymbolNode

structure GraphEdge where
  source : String
  target : String
  kind : EdgeKind
  confidence : Confidence
deriving DecidableEq, Repr, Inhabited

/-- A defect of the input that does not stop the work. The code is a stable name. -/
structure Warning where
  code : String
  message : String
  path : String
  line : Option UInt64
deriving DecidableEq, Repr, Inhabited

end SourceAtlas
