/- A source file with its syntax tree: the text, position and location of tree nodes. -/
import SourceAtlas.Namespace
import SourceAtlas.Symbol
import SourceAtlas.Syntax.Tree
import SourceAtlas.Text.Shape
import SourceAtlas.Text.Summary

namespace SourceAtlas

/-- A place in a text: line and byte column, both from zero. -/
structure Position where
  row : Nat
  column : Nat
deriving DecidableEq, Repr

/-- The place reached after one more byte; a line feed starts a new row. -/
def Position.advance (position : Position) (byte : UInt8) : Position :=
  if byte = 10 then ⟨position.row + 1, 0⟩ else ⟨position.row, position.column + 1⟩

/-- One source file. The tree is absent when the text could not be parsed. -/
structure SourceFile where
  path : String
  language : Language
  text : String
  tree : Option SyntaxTree
deriving Repr, Inhabited

namespace SourceFile

def family (file : SourceFile) : Family := file.language.family

/-- The dotted name that the path alone gives. -/
def module (file : SourceFile) : String := Namespace.moduleOf file.path

/-- The place of a byte offset. -/
def position (file : SourceFile) (offset : Nat) : Position :=
  (file.text.toUTF8.extract 0 offset).toList.foldl Position.advance ⟨0, 0⟩

/-- The text of a node; empty when its offsets do not cut whole characters. -/
def textOf (file : SourceFile) (tree : SyntaxTree) : String :=
  (String.fromUTF8? (file.text.toUTF8.extract tree.label.start tree.label.stop)).getD ""

/-- The text of the first child in a field, when it is not empty. -/
def fieldText? (file : SourceFile) (tree : SyntaxTree) (field : String) : Option String :=
  ((tree.child? field).map file.textOf).filter (· ≠ "")

/-- The range of a node in its file. -/
def locate (file : SourceFile) (tree : SyntaxTree) : SourceLocation :=
  let start := file.position tree.label.start
  let stop := file.position tree.label.stop
  { path := file.path
    startLine := UInt64.ofNat (start.row + 1)
    endLine := UInt64.ofNat (stop.row + 1)
    startColumn := UInt64.ofNat start.column
    endColumn := UInt64.ofNat stop.column }

def signatureOf (file : SourceFile) (tree : SyntaxTree) : Option String :=
  Text.signatureLine (file.textOf tree)

/-- A diagnostic description of a file, without its text and tree. -/
def describe (file : SourceFile) : String :=
  Text.join ""
    ["ParsedFile \x7b path: ", Text.quote file.path, ", module: ", Text.quote file.module,
     ", language: ", file.language.label, ", has_tree: ", toString file.tree.isSome, ", .. \x7d"]

/-- The line of the first fault of the tree, counted from one. -/
def firstFaultLine? (file : SourceFile) (tree : SyntaxTree) : Option Nat :=
  tree.firstFault?.map fun fault => (file.position fault.label.start).row + 1

end SourceFile

end SourceAtlas
