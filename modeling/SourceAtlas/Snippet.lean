/- Source excerpts of single symbols, with highlighted lines. -/
import SourceAtlas.Error
import SourceAtlas.Index.Basic
import SourceAtlas.Text.Blank

namespace SourceAtlas

/-- The bounds of excerpts. -/
structure SnippetConfig where
  maxLines : Nat := 200
  fallbackContext : Nat := 40
deriving DecidableEq, Repr

inductive SnippetSection where
  /-- The recorded lines of a symbol. -/
  | full
  /-- Decorators, signature and body of a function, method or class. -/
  | body
deriving DecidableEq, Repr

def SnippetSection.name : SnippetSection → String
  | .full => "full"
  | .body => "body"

def SnippetSection.parse (text : String) : Except AtlasError SnippetSection :=
  match text with
  | "full" => .ok .full
  | "body" => .ok .body
  | other => .error (.unknownSection other)

/-- A labelled range of lines. -/
structure Highlight where
  label : String
  startLine : Nat
  endLine : Nat
deriving DecidableEq, Repr

def Highlight.line (label : String) (line : Nat) : Highlight := ⟨label, line, line⟩

structure SymbolSnippet where
  node : SymbolNode
  location : SourceLocation
  startLine : Nat
  endLine : Nat
  totalLines : Nat
  truncated : Bool
  highlights : List Highlight
  part : SnippetSection
  text : String
deriving DecidableEq, Repr

namespace Snippet

/-- The lines of an excerpt, counted from one, and its highlights. -/
structure Range where
  startLine : Nat
  endLine : Nat
  highlights : List Highlight
deriving DecidableEq, Repr

/-- A sum of line numbers, which have 64 bits. -/
def add (a b : Nat) : Except AtlasError Nat :=
  if a + b < UInt64.size then .ok (a + b) else .error .overflow

/-- The last of a number of lines from a first one, within the file. -/
def lastOf (total first count : Nat) : Except AtlasError Nat := do
  return min total ((← add first count) - 1)

/-- The last line when the recorded one lies before the first. -/
def fallbackEnd (total first fallback : Nat) : Except AtlasError Nat := do
  return min total (← add first (fallback - 1))

/-- The number of lines from a first to a last one, both included. -/
def countLines (first last : Nat) : Except AtlasError Nat := do
  return (← add last 1) - first

/-- The last line of a full excerpt. A file without recorded lines is shown from its start,
and other symbols up to the recorded end, within the file and the limit. -/
def fullEnd (kind : NodeKind) (first recorded total maxLines fallback : Nat) :
    Except AtlasError Nat :=
  if kind = .file ∧ recorded = 0 then lastOf total first maxLines
  else do
    let last ← if recorded < first then fallbackEnd total first fallback else pure recorded
    let last ←
      if maxLines < (← countLines first last) then lastOf total first maxLines else pure last
    return min last total

/-- The recorded lines of a symbol. -/
def fullRange (kind : NodeKind) (location : SourceLocation) (total maxLines fallback : Nat) :
    Except AtlasError Range := do
  let first := max location.startLine.toNat 1
  let last ← fullEnd kind first location.endLine.toNat total maxLines fallback
  let closing := if last = first then [] else [Highlight.line "snippet_end" last]
  return ⟨first, last, .line "snippet_start" first :: closing⟩

/-- Whether a line is a decorator. -/
def isDecorator (line : List Char) : Bool := (Text.trimStartChars line).head? == some '@'

/-- The number of decorator lines directly above a line. -/
def decoratorCount (lines : List (List Char)) (line : Nat) : Nat :=
  ((lines.take (line - 1)).reverse.takeWhile isDecorator).length

/-- Decorators, signature and body of a declaration. -/
def bodyRange (lines : List (List Char)) (location : SourceLocation) (maxLines fallback : Nat) :
    Except AtlasError Range := do
  let total := lines.length
  let signature := min (max location.startLine.toNat 1) total
  let header := signature - decoratorCount lines signature
  let bodyStart := max (min (← add signature 1) total) 1
  let recorded := location.endLine.toNat
  let last ← if recorded < bodyStart then fallbackEnd total bodyStart fallback else pure recorded
  let last ←
    if maxLines < (← countLines header last) then lastOf total header maxLines else pure last
  let decorators :=
    if header < signature then [Highlight.mk "decorators" header (signature - 1)] else []
  let body :=
    if bodyStart ≤ last then
      .line "body_start" bodyStart ::
        if last = bodyStart then [] else [Highlight.line "body_end" last]
    else []
  return ⟨header, last, decorators ++ .line "signature" signature :: body⟩

/-- The lines from a first to a last one; none when they do not lie in the file in this order. -/
def slice (lines : List (List Char)) (first last : Nat) : List (List Char) :=
  let start := first - 1
  let stop := min last lines.length
  if start ≤ stop then (lines.take stop).drop start else []

def hasBody (kind : NodeKind) : Bool :=
  kind == .function || kind == .method || kind == .class

/-- The excerpt of a located node out of the lines of its file. -/
def ofLines (node : SymbolNode) (location : SourceLocation) (part : SnippetSection)
    (config : SnippetConfig) (lines : List (List Char)) : Except AtlasError SymbolSnippet := do
  let total := lines.length
  let maxLines := max config.maxLines 1
  let range ←
    if part = .body ∧ hasBody node.kind then
      bodyRange lines location maxLines config.fallbackContext
    else fullRange node.kind location total maxLines config.fallbackContext
  let count ← countLines range.startLine range.endLine
  return {
    node
    location
    startLine := range.startLine
    endLine := range.endLine
    totalLines := total
    truncated := range.endLine < total ∧ (node.kind = .file ∨ maxLines ≤ count)
    highlights := range.highlights
    part
    text := String.ofList (slice lines range.startLine range.endLine).flatten }

end Snippet

/-- The excerpt of a symbol. `read` gives the decoded text at a location's path, if any. -/
def symbolSnippet (index : RepoIndex) (read : String → Option String) (id : String)
    (part : SnippetSection) (config : SnippetConfig) : Except AtlasError SymbolSnippet :=
  match index.nodes[id]? with
  | none => .error (.symbolNotFound id)
  | some node =>
    match node.location.filter fun location => location.path ≠ "" with
    | none => .error (.missingLocation id)
    | some location =>
      let lines := Text.terminatedLines ((read location.path).getD "").toList
      if lines.isEmpty then .error (.sourceUnavailable location.path)
      else Snippet.ofLines node location part config lines

end SourceAtlas
