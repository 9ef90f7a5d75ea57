/- Blank characters, and the words and lines that they separate. -/

namespace SourceAtlas.Text

/-- A character is blank when it has the Unicode property White_Space.
Zero-width characters and the byte order mark are not blank. -/
def isBlank (c : Char) : Bool :=
  let n := c.toNat
  (0x09 ≤ n && n ≤ 0x0D) || n == 0x20 || n == 0x85 || n == 0xA0 || n == 0x1680 ||
    (0x2000 ≤ n && n ≤ 0x200A) || n == 0x2028 || n == 0x2029 || n == 0x202F || n == 0x205F ||
    n == 0x3000

/-- Text without its leading blanks. -/
def trimStartChars (text : List Char) : List Char :=
  text.dropWhile isBlank

/-- Text without its trailing blanks. -/
def trimEndChars (text : List Char) : List Char :=
  (text.reverse.dropWhile isBlank).reverse

/-- Text without the blanks at either end. -/
def trimChars (text : List Char) : List Char :=
  trimEndChars (trimStartChars text)

def trim (text : String) : String :=
  String.ofList (trimChars text.toList)

/-- The maximal runs of characters that are not blank. -/
def words (text : List Char) : List (List Char) :=
  (text.splitOnP isBlank).filter fun word => !word.isEmpty

/-- The words of a text with one space between neighbours. -/
def collapse (text : List Char) : List Char :=
  [' '].intercalate (words text)

/-- The lines of a text, each with the line feed that ends it.
Their concatenation is the text, and no line is empty. -/
def terminatedLines (text : List Char) : List (List Char) :=
  text.foldr
    (fun c rest =>
      if c = '\n' then [c] :: rest
      else match rest with
        | [] => [[c]]
        | line :: later => (c :: line) :: later)
    []

/-- A line without its terminator: a line feed, or a carriage return and a line feed.
A carriage return with no line feed after it belongs to the line. -/
def unterminated (line : List Char) : List Char :=
  if line.getLast? = some '\n' then
    let body := line.dropLast
    if body.getLast? = some '\r' then body.dropLast else body
  else line

/-- The lines of a text without their terminators. -/
def lines (text : List Char) : List (List Char) :=
  (terminatedLines text).map unterminated

end SourceAtlas.Text
