/- Declarations as every language front-end records them, and their documentation comments. -/
import SourceAtlas.Symbol
import SourceAtlas.Syntax.Source

namespace SourceAtlas

structure Declaration where
  name : String
  location : SourceLocation
  signature : Option String
  doc : Option String
deriving DecidableEq, Repr, Inhabited

/-- The graph node of a declaration. -/
def Declaration.toNode (declaration : Declaration) (id : String) (kind : NodeKind)
    (module : String) :
    SymbolNode where
  id := id
  name := declaration.name
  kind := kind
  summary := Text.docSummary declaration.doc
  signature := declaration.signature
  docstring := declaration.doc
  location := some declaration.location
  module := some module

/-- A text, unless it is empty. -/
def nonempty? (text : String) : Option String :=
  if text = "" then none else some text

namespace DocComment

def isCommentKind (tree : SyntaxTree) : Bool :=
  tree.kind == "comment" || tree.kind == "multiline_comment"

/-- The trimmed text of a documentation comment; other comments do not count. -/
def block? (file : SourceFile) (tree : SyntaxTree) : Option String :=
  if isCommentKind tree then
    let text := Text.trim (file.textOf tree)
    if Text.startsWith text "/**" || Text.startsWith text "///" then some text else none
  else none

/-- The unbroken run of documentation comments at the head of a list. -/
def blocks (file : SourceFile) : List SyntaxTree → List String
  | [] => []
  | tree :: rest =>
    match block? file tree with
    | some text => text :: blocks file rest
    | none => []

/-- A line of a comment without its comment marks. -/
def cleanLine (line : List Char) : String :=
  let line := Text.trim (String.ofList line)
  let line := ((Text.dropStart? "/**" line).or (Text.dropStart? "///" line)).getD line
  let line := Text.trim ((Text.dropEnd? "*/" line).getD line)
  Text.trim ((Text.dropStart? "*" line).getD line)

/-- The documentation directly above a node, given its earlier siblings with the nearest first. -/
def above (file : SourceFile) (before : List SyntaxTree) : Option String :=
  let lines := (blocks file before).reverse.flatMap fun block => Text.lines block.toList
  let cleaned := (lines.map cleanLine).filter (· ≠ "")
  if cleaned.isEmpty then none else some (Text.join "\n" cleaned)

end DocComment

end SourceAtlas
