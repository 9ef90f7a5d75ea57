/- Excerpts of bodies. They start with the decorators of their symbol, and they end in it unless the
symbol is a single line: then the line after it counts as the start of a body whose end is not
known. -/
import SourceAtlas.Proofs.Excerpts

namespace SourceAtlas

namespace Snippet

/-- The first of the decorators directly above a line, or the line itself when there are none. -/
def HeadedBy (lines : List (List Char)) (line first : Nat) : Prop :=
  ∃ before decorators, lines.take (line - 1) = before ++ decorators ∧ first = before.length + 1 ∧
    (∀ text ∈ decorators, isDecorator text = true) ∧ ∀ text,
      before.getLast? = some text → isDecorator text = false

theorem headedBy_decoratorCount {lines : List (List Char)} {line : Nat} (positive : 0 < line)
    (inside : line ≤ lines.length) : HeadedBy lines line (line - decoratorCount lines line) := by
  have split := (List.takeWhile_append_dropWhile (p := isDecorator)
    (l := (lines.take (line - 1)).reverse))
  refine ⟨((lines.take (line - 1)).reverse.dropWhile isDecorator).reverse,
    ((lines.take (line - 1)).reverse.takeWhile isDecorator).reverse, ?_, ?_, ?_, ?_⟩
  · rw [← List.reverse_append, split, List.reverse_reverse]
  · have lengths := congrArg List.length split
    rw [List.length_append, List.length_reverse, List.length_take,
      Nat.min_eq_left (by omega)] at lengths
    rw [List.length_reverse, decoratorCount]
    omega
  · intro text member
    exact List.all_eq_true.mp List.all_takeWhile text (List.mem_reverse.mp member)
  · intro text last
    rw [List.getLast?_reverse] at last
    have stopped := List.head?_dropWhile_not isDecorator (lines.take (line - 1)).reverse
    rw [last] at stopped
    exact stopped

variable {lines : List (List Char)} {location : SourceLocation}

theorem signatureLine_of_within (within : location.Within lines.length) :
    signatureLine lines location = location.startLine.toNat := by
  obtain ⟨first, ordered, last⟩ := within
  rw [signatureLine]
  omega

theorem headedBy_headerLine (within : location.Within lines.length) :
    HeadedBy lines location.startLine.toNat (headerLine lines location) := by
  rw [headerLine, signatureLine_of_within within]
  exact headedBy_decoratorCount within.first (Nat.le_trans within.ordered within.last)

/-- The last line of a body, when all recorded lines are there. -/
theorem bodyEnd_le_iff (within : location.Within lines.length) {maxLines : Nat}
    (positive : 0 < maxLines) (fallback : Nat) :
    limitedEnd lines.length (headerLine lines location)
        (wishedEnd lines.length (bodyStart lines location) location.endLine.toNat fallback)
        maxLines ≤
          location.endLine.toNat ↔
      location.startLine.toNat < location.endLine.toNat ∨ location.endLine.toNat = lines.length ∨
        maxLines ≤ location.endLine.toNat + 1 - headerLine lines location := by
  have signature := signatureLine_of_within within
  obtain ⟨first, ordered, last⟩ := within
  have header : 0 < headerLine lines location ∧
      headerLine lines location ≤ location.startLine.toNat := by
    have above := @decoratorCount_lt lines location.startLine.toNat first
    rw [headerLine, signature]
    omega
  -- A symbol of one line ends before its body starts, and then the fallback replaces the recorded
  -- end.
  rw [limitedEnd, wishedEnd, bodyStart, signature]
  split <;> split <;> omega

theorem ofLines_body_eq_ok_iff {node : SymbolNode} {config : SnippetConfig}
    {snippet : SymbolSnippet} (body : hasBody node.kind = true) :
    ofLines node location .body config lines = .ok snippet ↔
      ∃ range, bodyRange lines location (max config.maxLines 1) config.fallbackContext = .ok range ∧
        range.endLine + 1 < UInt64.size ∧
          showing node location .body config lines range = snippet := by
  rw [ofLines_eq_ok_iff, if_pos ⟨rfl, body⟩]

/-- Only a fallback that reaches too far keeps a body from being shown. -/
theorem exists_bodyRange (within : location.Within lines.length)
    (room : lines.length + 1 < UInt64.size) {maxLines fallback : Nat}
    (reach : location.startLine.toNat = location.endLine.toNat →
      location.endLine.toNat < lines.length →
        location.startLine.toNat + max 1 fallback < UInt64.size) :
    ∃ range, bodyRange lines location maxLines fallback = .ok range ∧
      range.endLine + 1 < UInt64.size := by
  have signature := signatureLine_of_within within
  obtain ⟨first, ordered, last⟩ := within
  refine ⟨_, bodyRange_eq_ok_iff.mpr ⟨?_, ?_, ?_, rfl⟩, ?_⟩
  · omega
  · rw [bodyStart, signature]
    omega
  · rw [wishedEnd]
    split <;> omega
  · simp only [bodyUpTo, limitedEnd, wishedEnd]
    split <;> split <;> omega

end Snippet

open Snippet

/-- The excerpt of a body starts with the decorators above the symbol. It ends in the symbol exactly
when that has several lines, is the end of its file, or is cut off by the limit. -/
theorem symbolSnippet_body_iff {index : RepoIndex} {read : String → Option String} {id : String}
    {node : SymbolNode} {location : SourceLocation} {text : String}
    (source : Source index read id node location text) (body : hasBody node.kind = true)
    (within : location.Within (Text.terminatedLines text.toList).length) (config : SnippetConfig) :
    (∀ snippet, symbolSnippet index read id .body config = .ok snippet →
      HeadedBy (Text.terminatedLines text.toList) location.startLine.toNat snippet.startLine ∧
      (snippet.endLine ≤ location.endLine.toNat ↔
        location.startLine.toNat < location.endLine.toNat ∨
        location.endLine.toNat = (Text.terminatedLines text.toList).length ∨
        max 1 config.maxLines ≤ location.endLine.toNat + 1 - snippet.startLine)) ∧
    ((Text.terminatedLines text.toList).length + 1 < UInt64.size →
      (location.startLine.toNat = location.endLine.toNat →
        location.endLine.toNat < (Text.terminatedLines text.toList).length →
        location.startLine.toNat + max 1 config.fallbackContext < UInt64.size) →
      ∃ snippet, symbolSnippet index read id .body config = .ok snippet) := by
  rw [source.symbolSnippet_eq]
  refine ⟨?_, ?_⟩
  · intro snippet shown
    obtain ⟨range, ranged, _, rfl⟩ := (ofLines_body_eq_ok_iff body).mp shown
    obtain ⟨_, _, _, rfl⟩ := bodyRange_eq_ok_iff.mp ranged
    refine ⟨headedBy_headerLine within, ?_⟩
    rw [Nat.max_comm 1]
    exact bodyEnd_le_iff within (Nat.lt_of_lt_of_le Nat.zero_lt_one (Nat.le_max_right _ _)) _
  · intro room reach
    obtain ⟨range, ranged, short⟩ := exists_bodyRange within room reach
    exact ⟨_, (ofLines_body_eq_ok_iff body).mpr ⟨range, ranged, short, rfl⟩⟩

theorem symbolSnippet_body_iff_decorated :
    ∃ snippet, symbolSnippet decoratedIndex (fun _ => some decoratedText) "f" .body {} =
      .ok snippet ∧
      HeadedBy (Text.terminatedLines decoratedText.toList) 3 snippet.startLine ∧
        snippet.endLine ≤ 4 := by
  obtain ⟨shows, returns⟩ := symbolSnippet_body_iff decoratedIndex_source rfl
    decoratedText_within {}
  obtain ⟨snippet, shown⟩ := returns (by decide) (by decide)
  obtain ⟨headed, ends⟩ := shows snippet shown
  exact ⟨snippet, shown, headed, ends.mpr (.inl (by decide))⟩

/-- A function of one line, with something else after it. -/
def singleLineText : String := "def f(): pass\nx = 1\n"

def singleLineIndex : RepoIndex :=
  .ofGraph ((∅ : TextMap SymbolNode).insert
    "f" ⟨"f", "f", .function, "", none, none, some ⟨"a.py", 1, 1, 0, 0⟩, none⟩) []

/-- The excerpt of the function's body goes on after the function. -/
theorem symbolSnippet_body_leaves :
    SourceLocation.Within ⟨"a.py", 1, 1, 0, 0⟩ (Text.terminatedLines singleLineText.toList).length ∧
      ∃ snippet, symbolSnippet singleLineIndex (fun _ => some singleLineText) "f" .body {} =
        .ok snippet ∧
        snippet.node.kind = .function ∧ snippet.location = ⟨"a.py", 1, 1, 0, 0⟩ ∧
          snippet.endLine = 2 ∧
        snippet.text = singleLineText := by
  have source : Source singleLineIndex (fun _ => some singleLineText) "f"
      ⟨"f", "f", .function, "", none, none, some ⟨"a.py", 1, 1, 0, 0⟩, none⟩ ⟨"a.py", 1, 1, 0, 0⟩
      singleLineText :=
    ⟨by decide +kernel, rfl, by decide, rfl, by decide⟩
  refine ⟨by constructor <;> decide, ?_⟩
  rw [source.symbolSnippet_eq]
  exact ⟨_, rfl, rfl, rfl, rfl, by decide⟩

end SourceAtlas
