/- Short forms of text: a declaration's signature line, a summary line, a compact excerpt. -/
import SourceAtlas.Text.Blank

namespace SourceAtlas.Text

/-- The first line of a text that has been trimmed, itself trimmed. -/
def firstLine? (text : List Char) : Option (List Char) :=
  (lines (trimChars text)).head?.map trimChars

/-- A line without one opening brace or colon at its end. -/
def dropOpener (line : List Char) : List Char :=
  match line.getLast? with
  | some '\x7b' => line.dropLast
  | some ':' => line.dropLast
  | _ => line

/-- The first line of a declaration, without the mark that opens its body. -/
def signatureLine (text : String) : Option String :=
  match firstLine? text.toList with
  | none => none
  | some line =>
    let bare := trimEndChars (dropOpener line)
    if bare.isEmpty then none else some (String.ofList bare)

/-- The first line of a documentation text; empty when there is none. -/
def docSummary (doc : Option String) : String :=
  match doc.bind fun text => firstLine? text.toList with
  | some line => String.ofList line
  | none => ""

/-- The mark that stands for text left out. -/
def ellipsis : List Char := ['.', '.', '.']

/-- A collapsed text cut to a limit of characters.
When it is too long, the mark of omission takes the last three places. -/
def compactChars (limit : Nat) (text : List Char) : List Char :=
  let cleaned := collapse text
  if cleaned.length ≤ limit then cleaned
  else trimEndChars (cleaned.take (limit - 3)) ++ ellipsis

def compact (limit : Nat) (text : String) : String :=
  String.ofList (compactChars limit text.toList)

end SourceAtlas.Text
