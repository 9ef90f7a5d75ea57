/- Syntax trees in a flat form: the names of kinds and fields, and six numbers for each node in
the order of a walk that goes through a node before its children. -/
import SourceAtlas.Json.Decode
import SourceAtlas.Syntax.Tree

namespace SourceAtlas

open Json (text? natural? integer? list? required?)

/-- The numbers of one node. A field below zero stands for none. -/
structure TreeRow where
  kind : Nat
  flags : Nat
  start : Nat
  stop : Nat
  field : Int
  childCount : Nat

namespace TreeRow

def label (row : TreeRow) (kinds fields : Array String) : SyntaxLabel :=
  { kind := kinds.getD row.kind ""
    field := if row.field < 0 then none else fields[row.field.toNat]?
    isNamed := row.flags.testBit 0
    isMissing := row.flags.testBit 1
    isError := row.flags.testBit 2
    hasError := row.flags.testBit 3
    start := row.start
    stop := row.stop }

/-- The rows of a list of numbers, newest first. -/
def ofNumbers (done : List TreeRow) : List Int → List TreeRow
  | kind :: flags :: start :: stop :: field :: childCount :: rest =>
    ofNumbers (⟨kind.toNat, flags.toNat, start.toNat, stop.toNat, field, childCount.toNat⟩ :: done)
      rest
  | _ => done

end TreeRow

namespace SyntaxTree

/-- The trees of some rows, given last row first: a node takes its children from the trees that
follow it. -/
def ofRows (kinds fields : Array String) (rows : List TreeRow) : List SyntaxTree :=
  rows.foldl
    (fun following row =>
      .node (row.label kinds fields) (following.take row.childCount) ::
        following.drop row.childCount) []

def ofJson? (json : Json) : Option SyntaxTree := do
  let fields ← json.recordFields? ["kinds", "fields", "nodes"]
  let kinds ← required? fields "kinds" (list? text?)
  let names ← required? fields "fields" (list? text?)
  let numbers ← required? fields "nodes" (list? integer?)
  (ofRows kinds.toArray names.toArray (TreeRow.ofNumbers [] numbers)).head?

end SyntaxTree

end SourceAtlas
