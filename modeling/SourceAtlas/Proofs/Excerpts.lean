/- What an excerpt shows: never more lines than its limit, the first of the recorded lines when they
are all there, and a whole file when the limit leaves room for it. -/
import Mathlib.Data.List.Basic
import SourceAtlas.Proofs.TextMap
import SourceAtlas.Snippet

namespace SourceAtlas

namespace Text

/-- Lines that follow each other: only the last one may lack its line feed, and then it is not
empty. -/
inductive Lined : List (List Char) → Prop
  | nil : Lined []
  | unended {line : List Char} : line ≠ [] → '\n' ∉ line → Lined [line]
  | ended {line : List Char} {rest : List (List Char)} :
      '\n' ∉ line → Lined rest → Lined ((line ++ ['\n']) :: rest)

theorem terminatedLines_cons {c : Char} (other : c ≠ '\n') (text : List Char) :
    terminatedLines (c :: text) =
      (c :: (terminatedLines text).headD []) :: (terminatedLines text).tail := by
  rw [terminatedLines, List.foldr_cons, if_neg other, ← terminatedLines]
  cases terminatedLines text <;> rfl

theorem terminatedLines_ended {line : List Char} (plain : '\n' ∉ line) (rest : List Char) :
    terminatedLines (line ++ '\n' :: rest) = (line ++ ['\n']) :: terminatedLines rest := by
  induction line with
  | nil => rfl
  | cons c line ih =>
      rw [List.mem_cons, not_or] at plain
      rw [List.cons_append, terminatedLines_cons (Ne.symm plain.1), ih plain.2]
      rfl

theorem terminatedLines_unended {line : List Char} (filled : line ≠ []) (plain : '\n' ∉ line) :
    terminatedLines line = [line] := by
  induction line with
  | nil => exact absurd rfl filled
  | cons c line ih =>
      rw [List.mem_cons, not_or] at plain
      rw [terminatedLines_cons (Ne.symm plain.1)]
      cases line with
      | nil => rfl
      | cons next line => rw [ih (by simp) plain.2, List.headD_cons, List.tail_cons]

@[simp] theorem flatten_terminatedLines (text : List Char) :
    (terminatedLines text).flatten = text := by
  induction text with
  | nil => rfl
  | cons c text ih =>
      by_cases feed : c = '\n'
      · subst feed
        exact congrArg (List.cons '\n') ih
      · rw [terminatedLines_cons feed, List.flatten_cons, List.cons_append]
        refine congrArg (List.cons c) (Eq.trans ?_ ih)
        cases terminatedLines text <;> simp

theorem terminatedLines_eq_nil_iff {text : String} :
    terminatedLines text.toList = [] ↔ text = "" := by
  constructor
  · intro unlined
    have empty := flatten_terminatedLines text.toList
    rw [unlined] at empty
    exact String.toList_inj.mp empty.symm
  · rintro rfl
    rfl

theorem lined_terminatedLines (text : List Char) : Lined (terminatedLines text) := by
  induction text with
  | nil => exact .nil
  | cons c text ih =>
      by_cases feed : c = '\n'
      · subst feed
        exact @Lined.ended [] _ List.not_mem_nil ih
      · rw [terminatedLines_cons feed]
        generalize terminatedLines text = lines at ih
        cases ih with
        | nil => exact .unended (by simp) (by simpa using Ne.symm feed)
        | unended filled plain => exact .unended (by simp) (by simpa [plain] using Ne.symm feed)
        | @ended line rest plain later =>
            exact @Lined.ended (c :: line) _ (by simpa [plain] using Ne.symm feed) later

namespace Lined

variable {lines : List (List Char)}

theorem terminatedLines_flatten (lined : Lined lines) : terminatedLines lines.flatten = lines := by
  induction lined with
  | nil => rfl
  | unended filled plain => simpa using terminatedLines_unended filled plain
  | ended plain _ ih =>
      rw [List.flatten_cons, List.append_assoc, List.singleton_append,
        terminatedLines_ended plain, ih]

theorem take (lined : Lined lines) (count : Nat) : Lined (lines.take count) := by
  induction lined generalizing count with
  | nil => simpa using nil
  | unended filled plain =>
      cases count with
      | zero => exact nil
      | succ count => simpa using unended filled plain
  | ended plain _ ih =>
      cases count with
      | zero => exact nil
      | succ count => exact ended plain (ih count)

theorem drop (lined : Lined lines) (count : Nat) : Lined (lines.drop count) := by
  induction lined generalizing count with
  | nil => simpa using nil
  | unended filled plain =>
      cases count with
      | zero => exact unended filled plain
      | succ count => simpa using nil
  | ended plain rest ih =>
      cases count with
      | zero => exact ended plain rest
      | succ count => exact ih count

end Lined

end Text

namespace Snippet

@[simp] theorem bind_eq_ok_iff {α β : Type} {first : Except AtlasError α}
    {next : α → Except AtlasError β} {result : β} :
    (first >>= next) = .ok result ↔ ∃ value, first = .ok value ∧ next value = .ok result := by
  cases first with
  | error error => simp [bind, Except.bind]
  | ok value => simp [bind, Except.bind]

@[simp] theorem pure_eq_ok_iff {α : Type} {value result : α} :
    (pure value : Except AtlasError α) = .ok result ↔ value = result :=
  Iff.of_eq (Except.ok.injEq value result)

@[simp] theorem add_eq_ok_iff {a b sum : Nat} :
    add a b = .ok sum ↔ a + b < UInt64.size ∧ a + b = sum := by
  rw [add]
  split <;> simp [*]

theorem return_add_eq_ok_iff {α : Type} {a b : Nat} {value : Nat → α} {result : α} :
    (add a b >>= fun sum => pure (value sum)) = .ok result ↔
      a + b < UInt64.size ∧ value (a + b) = result := by
  rw [bind_eq_ok_iff]
  simp only [add_eq_ok_iff, pure_eq_ok_iff, and_assoc, exists_and_left, exists_eq_left']

@[simp] theorem lastOf_eq_ok_iff {total first count last : Nat} :
    lastOf total first count = .ok last ↔
      first + count < UInt64.size ∧ min total (first + count - 1) = last :=
  return_add_eq_ok_iff

@[simp] theorem fallbackEnd_eq_ok_iff {total first fallback last : Nat} :
    fallbackEnd total first fallback = .ok last ↔
      first + (fallback - 1) < UInt64.size ∧ min total (first + (fallback - 1)) = last :=
  return_add_eq_ok_iff

@[simp] theorem countLines_eq_ok_iff {first last count : Nat} :
    countLines first last = .ok count ↔ last + 1 < UInt64.size ∧ last + 1 - first = count :=
  return_add_eq_ok_iff

/-- The last line that is asked for: the recorded one, or one after the first when that is not
recorded. -/
def wishedEnd (total first recorded fallback : Nat) : Nat :=
  if recorded < first then min total (first + (fallback - 1)) else recorded

/-- The last line that a limit allows. -/
def limitedEnd (total first last maxLines : Nat) : Nat :=
  if maxLines < last + 1 - first then min total (first + maxLines - 1) else last

section Steps

variable {α : Type} {next : Nat → Except AtlasError α} {result : α}
  {total first last maxLines recorded fallback : Nat}

theorem wishedEnd_eq_ok_iff :
    (if recorded < first then fallbackEnd total first fallback >>= next else next recorded) =
      .ok result ↔
      (recorded < first → first + (fallback - 1) < UInt64.size) ∧
        next (wishedEnd total first recorded fallback) = .ok result := by
  rw [wishedEnd]
  by_cases missing : recorded < first
  · simp [missing, and_assoc]
  · simp [missing]

theorem limitedEnd_eq_ok_iff :
    (countLines first last >>= fun count =>
      if maxLines < count then lastOf total first maxLines >>= next else next last) = .ok result ↔
      last + 1 < UInt64.size ∧ next (limitedEnd total first last maxLines) = .ok result := by
  rw [bind_eq_ok_iff, limitedEnd]
  constructor
  · rintro ⟨count, counted, shown⟩
    obtain ⟨room, rfl⟩ := countLines_eq_ok_iff.mp counted
    refine ⟨room, ?_⟩
    split at shown
    · next long =>
        obtain ⟨value, cut, shown⟩ := bind_eq_ok_iff.mp shown
        obtain ⟨_, rfl⟩ := lastOf_eq_ok_iff.mp cut
        rwa [if_pos long]
    · next short => rwa [if_neg short]
  · rintro ⟨room, shown⟩
    refine ⟨_, countLines_eq_ok_iff.mpr ⟨room, rfl⟩, ?_⟩
    split at shown
    · next long =>
        -- The range is longer than the limit, so the sum is at most the line after the range.
        rw [if_pos long]
        exact bind_eq_ok_iff.mpr ⟨_, lastOf_eq_ok_iff.mpr ⟨by omega, rfl⟩, shown⟩
    · next short => rwa [if_neg short]

end Steps

theorem fullEnd_eq_ok_iff {kind : NodeKind} {first recorded total maxLines fallback last : Nat} :
    fullEnd kind first recorded total maxLines fallback = .ok last ↔
      if kind = .file ∧ recorded = 0 then
        first + maxLines < UInt64.size ∧ min total (first + maxLines - 1) = last
      else (recorded < first → first + (fallback - 1) < UInt64.size) ∧
        wishedEnd total first recorded fallback + 1 < UInt64.size ∧
        min (limitedEnd total first (wishedEnd total first recorded fallback) maxLines) total =
          last := by
  unfold fullEnd
  split
  · exact lastOf_eq_ok_iff
  · simp only [pure_bind]
    rw [wishedEnd_eq_ok_iff, limitedEnd_eq_ok_iff, pure_eq_ok_iff]

/-- The line of a signature, within the file. -/
def signatureLine (lines : List (List Char)) (location : SourceLocation) : Nat :=
  min (max location.startLine.toNat 1) lines.length

/-- The line after the signature, within the file. -/
def bodyStart (lines : List (List Char)) (location : SourceLocation) : Nat :=
  max (min (signatureLine lines location + 1) lines.length) 1

/-- The first decorator of a signature, or the signature. -/
def headerLine (lines : List (List Char)) (location : SourceLocation) : Nat :=
  signatureLine lines location - decoratorCount lines (signatureLine lines location)

/-- The lines of a body up to a last one, with their highlights. -/
def bodyUpTo (lines : List (List Char)) (location : SourceLocation) (last : Nat) : Range where
  startLine := headerLine lines location
  endLine := last
  highlights :=
    (if headerLine lines location < signatureLine lines location then
        [⟨"decorators", headerLine lines location, signatureLine lines location - 1⟩]
      else []) ++
    .line "signature" (signatureLine lines location) ::
    if bodyStart lines location ≤ last then
      .line "body_start" (bodyStart lines location) ::
        if last = bodyStart lines location then [] else [.line "body_end" last]
    else []

theorem bodyRange_eq_ok_iff {lines : List (List Char)} {location : SourceLocation}
    {maxLines fallback : Nat} {range : Range} :
    bodyRange lines location maxLines fallback = .ok range ↔
      signatureLine lines location + 1 < UInt64.size ∧
      (location.endLine.toNat < bodyStart lines location →
        bodyStart lines location + (fallback - 1) < UInt64.size) ∧
      wishedEnd lines.length (bodyStart lines location) location.endLine.toNat fallback + 1 <
        UInt64.size ∧
      bodyUpTo lines location (limitedEnd lines.length (headerLine lines location)
        (wishedEnd lines.length (bodyStart lines location) location.endLine.toNat fallback)
        maxLines) = range := by
  unfold bodyRange
  simp only [pure_bind]
  rw [bind_eq_ok_iff]
  simp only [add_eq_ok_iff, and_assoc, exists_and_left, exists_eq_left']
  rw [wishedEnd_eq_ok_iff, limitedEnd_eq_ok_iff, pure_eq_ok_iff]
  exact Iff.rfl

/-- The recorded lines up to a last one, with their highlights. -/
def fullUpTo (location : SourceLocation) (last : Nat) : Range where
  startLine := max location.startLine.toNat 1
  endLine := last
  highlights := .line "snippet_start" (max location.startLine.toNat 1) ::
    if last = max location.startLine.toNat 1 then [] else [.line "snippet_end" last]

theorem fullRange_eq_ok_iff {kind : NodeKind} {location : SourceLocation}
    {total maxLines fallback : Nat} {range : Range} :
    fullRange kind location total maxLines fallback = .ok range ↔
      ∃ last, fullEnd kind (max location.startLine.toNat 1) location.endLine.toNat total maxLines
        fallback = .ok last ∧
        fullUpTo location last = range := by
  simp only [fullRange, bind_eq_ok_iff, pure_eq_ok_iff]
  exact Iff.rfl

/-- The excerpt that shows given lines. -/
def showing (node : SymbolNode) (location : SourceLocation) (part : SnippetSection)
    (config : SnippetConfig) (lines : List (List Char)) (range : Range) : SymbolSnippet where
  node := node
  location := location
  startLine := range.startLine
  endLine := range.endLine
  totalLines := lines.length
  truncated := range.endLine < lines.length ∧
    (node.kind = .file ∨ max config.maxLines 1 ≤ range.endLine + 1 - range.startLine)
  highlights := range.highlights
  part := part
  text := String.ofList (slice lines range.startLine range.endLine).flatten

theorem ofLines_eq_ok_iff {node : SymbolNode} {location : SourceLocation} {part : SnippetSection}
    {config : SnippetConfig} {lines : List (List Char)} {snippet : SymbolSnippet} :
    ofLines node location part config lines = .ok snippet ↔
      ∃ range, (if part = .body ∧ hasBody node.kind then
          bodyRange lines location (max config.maxLines 1) config.fallbackContext
        else fullRange node.kind location lines.length (max config.maxLines 1)
          config.fallbackContext) = .ok range ∧
      range.endLine + 1 < UInt64.size ∧
        showing node location part config lines range = snippet := by
  have finish {range : Range} : (countLines range.startLine range.endLine >>= fun count => pure {
      node, location, startLine := range.startLine, endLine := range.endLine, totalLines :=
      lines.length
      truncated := range.endLine < lines.length ∧
        (node.kind = .file ∨ max config.maxLines 1 ≤ count)
      highlights := range.highlights, part
      text := String.ofList (slice lines range.startLine range.endLine).flatten }) =
        Except.ok snippet ↔
      range.endLine + 1 < UInt64.size ∧
        showing node location part config lines range = snippet := by
    simp only [bind_eq_ok_iff, countLines_eq_ok_iff, pure_eq_ok_iff, and_assoc, exists_and_left,
      exists_eq_left']
    exact Iff.rfl
  unfold ofLines
  simp only
  split
  · rw [bind_eq_ok_iff]
    exact exists_congr fun range => and_congr_right fun _ => finish
  · rw [bind_eq_ok_iff]
    exact exists_congr fun range => and_congr_right fun _ => finish

theorem slice_eq_take (lines : List (List Char)) (first last : Nat) :
    slice lines first last = (lines.drop (first - 1)).take
      (min last lines.length - (first - 1)) := by
  rw [slice]
  split
  · exact List.drop_take
  · next beyond => rw [Nat.sub_eq_zero_of_le (Nat.le_of_not_le beyond), List.take_zero]

theorem limitedEnd_bounded {total first last maxLines : Nat} (positive : 0 < maxLines) :
    limitedEnd total first last maxLines + 1 - first ≤ maxLines := by
  rw [limitedEnd]
  split <;> omega

theorem decoratorCount_lt {lines : List (List Char)} {line : Nat} (positive : 0 < line) :
    decoratorCount lines line < line := by
  have most : decoratorCount lines line ≤ line - 1 := by
    calc decoratorCount lines line
      _ ≤ (lines.take (line - 1)).reverse.length := (List.takeWhile_sublist _).length_le
      _ ≤ line - 1 := by
          rw [List.length_reverse, List.length_take]
          exact Nat.min_le_left _ _
  omega

theorem signatureLine_pos {lines : List (List Char)} (filled : lines ≠ [])
    (location : SourceLocation) :
    0 < signatureLine lines location := by
  have positive := List.length_pos_iff.mpr filled
  rw [signatureLine]
  omega

theorem headerLine_pos {lines : List (List Char)} (filled : lines ≠ [])
    (location : SourceLocation) :
    0 < headerLine lines location :=
  Nat.sub_pos_of_lt (decoratorCount_lt (signatureLine_pos filled location))

/-- An excerpt starts in its file and is not longer than its limit. -/
theorem ofLines_bounded {node : SymbolNode} {location : SourceLocation} {part : SnippetSection}
    {config : SnippetConfig} {lines : List (List Char)} {snippet : SymbolSnippet}
    (filled : lines ≠ []) (shown : ofLines node location part config lines = .ok snippet) :
    0 < snippet.startLine ∧ snippet.endLine + 1 - snippet.startLine ≤ max config.maxLines 1 ∧
      snippet.text.toList = (slice lines snippet.startLine snippet.endLine).flatten := by
  obtain ⟨range, ranged, _, rfl⟩ := ofLines_eq_ok_iff.mp shown
  have positive : 0 < max config.maxLines 1 := by omega
  suffices bounds : 0 < range.startLine ∧
    range.endLine + 1 - range.startLine ≤ max config.maxLines 1 from
    ⟨bounds.1, bounds.2, String.toList_ofList⟩
  split at ranged
  · obtain ⟨_, _, _, rfl⟩ := bodyRange_eq_ok_iff.mp ranged
    exact ⟨headerLine_pos filled location, limitedEnd_bounded positive⟩
  · obtain ⟨last, ended, rfl⟩ := fullRange_eq_ok_iff.mp ranged
    refine ⟨Nat.lt_of_lt_of_le Nat.zero_lt_one (Nat.le_max_right _ _), ?_⟩
    have limit := @limitedEnd_bounded lines.length (max location.startLine.toNat 1)
      (wishedEnd lines.length (max location.startLine.toNat 1) location.endLine.toNat
        config.fallbackContext) _ positive
    rw [fullEnd_eq_ok_iff] at ended
    simp only [fullUpTo]
    split at ended <;> omega

end Snippet

/-- What excerpts of a symbol are made from: a node with a place in a file that has some text. -/
structure Snippet.Source (index : RepoIndex) (read : String → Option String) (id : String)
    (node : SymbolNode) (location : SourceLocation) (text : String) : Prop where
  known : index.nodes[id]? = some node
  located : node.location = some location
  named : location.path ≠ ""
  reads : read location.path = some text
  filled : text ≠ ""

/-- Whether the recorded lines of a symbol are lines of a file, in their order. -/
structure SourceLocation.Within (location : SourceLocation) (total : Nat) : Prop where
  first : 0 < location.startLine.toNat
  ordered : location.startLine.toNat ≤ location.endLine.toNat
  last : location.endLine.toNat ≤ total

section Symbols

variable {index : RepoIndex} {read : String → Option String} {id : String} {part : SnippetSection}
  {config : SnippetConfig}

open Snippet

theorem Snippet.Source.lines_ne_nil {node : SymbolNode} {location : SourceLocation} {text : String}
    (source : Source index read id node location text) : Text.terminatedLines text.toList ≠ [] :=
  fun unlined => source.filled (Text.terminatedLines_eq_nil_iff.mp unlined)

theorem Snippet.Source.symbolSnippet_eq {node : SymbolNode} {location : SourceLocation}
    {text : String} (source : Source index read id node location text) :
    symbolSnippet index read id part config =
      ofLines node location part config (Text.terminatedLines text.toList) := by
  have placed : (node.location.filter fun location => location.path ≠ "") = some location :=
    Option.filter_eq_some_iff.mpr ⟨source.located, by simpa using source.named⟩
  simp only [symbolSnippet, source.known, placed, source.reads, Option.getD_some]
  rw [if_neg (by simpa using source.lines_ne_nil)]

theorem symbolSnippet_eq_ok_iff {snippet : SymbolSnippet} :
    symbolSnippet index read id part config = .ok snippet ↔
      ∃ node location text, Source index read id node location text ∧
        ofLines node location part config (Text.terminatedLines text.toList) = .ok snippet := by
  constructor
  · intro shown
    rw [symbolSnippet] at shown
    split at shown
    · cases shown
    · next node known =>
        split at shown
        · cases shown
        · next location placed =>
            obtain ⟨located, named⟩ := Option.filter_eq_some_iff.mp placed
            simp only at shown
            split at shown
            · cases shown
            · next filled =>
                cases reads : read location.path with
                | none => simp [reads, Text.terminatedLines] at filled
                | some text =>
                    rw [reads, Option.getD_some] at shown filled
                    refine ⟨node, location, text, ⟨known, located, by simpa using named, reads, ?_⟩,
                      shown⟩
                    rintro rfl
                    exact filled rfl
  · rintro ⟨node, location, text, source, shown⟩
    rw [source.symbolSnippet_eq, shown]

theorem ofLines_within {node : SymbolNode} {location : SourceLocation} {lines : List (List Char)}
    (within : location.Within lines.length) (room : location.endLine.toNat + 1 < UInt64.size)
    (plain : ¬(part = .body ∧ hasBody node.kind = true)) :
    ofLines node location part config lines = .ok (showing node location part config lines
      (fullUpTo location (min location.endLine.toNat
        (location.startLine.toNat + max config.maxLines 1 - 1)))) := by
  obtain ⟨first, ordered, last⟩ := within
  have start : max location.startLine.toNat 1 = location.startLine.toNat := by omega
  have wished : wishedEnd lines.length location.startLine.toNat location.endLine.toNat
      config.fallbackContext =
      location.endLine.toNat := if_neg (Nat.not_lt.mpr ordered)
  have ended : fullEnd node.kind (max location.startLine.toNat 1) location.endLine.toNat
      lines.length
      (max config.maxLines 1) config.fallbackContext =
        .ok (min location.endLine.toNat
          (location.startLine.toNat + max config.maxLines 1 - 1)) := by
    rw [fullEnd_eq_ok_iff, if_neg (by omega), start, wished]
    refine ⟨by omega, room, ?_⟩
    rw [limitedEnd]
    split <;> omega
  refine ofLines_eq_ok_iff.mpr ⟨_, ?_, ?_, rfl⟩
  · rw [if_neg plain]
    exact fullRange_eq_ok_iff.mpr ⟨_, ended, rfl⟩
  · simp only [fullUpTo]
    omega

theorem ofLines_file {node : SymbolNode} {location : SourceLocation} {lines : List (List Char)}
    (file : node.kind = .file) (noStart : location.startLine = 0) (noEnd : location.endLine = 0)
    (filled : lines ≠ []) (whole : lines.length ≤ config.maxLines)
    (room : config.maxLines + 1 < UInt64.size) :
    ofLines node location part config lines =
      .ok (showing node location part config lines (fullUpTo location lines.length)) := by
  have count := List.length_pos_iff.mpr filled
  have start : max location.startLine.toNat 1 = 1 := by
    rw [noStart]
    rfl
  have ended : fullEnd node.kind (max location.startLine.toNat 1) location.endLine.toNat
      lines.length
      (max config.maxLines 1) config.fallbackContext = .ok lines.length := by
    rw [fullEnd_eq_ok_iff, if_pos ⟨file, by rw [noEnd]; rfl⟩, start]
    omega
  refine ofLines_eq_ok_iff.mpr ⟨_, ?_, ?_, rfl⟩
  · rw [if_neg (by simp [file, hasBody])]
    exact fullRange_eq_ok_iff.mpr ⟨_, ended, rfl⟩
  · simp only [fullUpTo]
    omega

/-- An excerpt has at most as many lines as it may. Recorded lines that are all there are shown from
the first one on, and a file without recorded lines as a whole. -/
theorem symbolSnippet_shows (index : RepoIndex) (read : String → Option String) (id : String)
    (config : SnippetConfig) :
    (∀ part snippet, symbolSnippet index read id part config = .ok snippet →
      (Text.terminatedLines snippet.text.toList).length ≤ max 1 config.maxLines) ∧
    ∀ node location text, Source index read id node location text →
      (location.Within (Text.terminatedLines text.toList).length →
        location.endLine.toNat + 1 < UInt64.size →
        ∃ snippet, symbolSnippet index read id .full config = .ok snippet ∧
          snippet.text = String.ofList
            (((Text.terminatedLines text.toList).drop (location.startLine.toNat - 1)).take
            (min (max 1 config.maxLines)
              (location.endLine.toNat - location.startLine.toNat + 1))).flatten) ∧
      (node.kind = .file → location.startLine = 0 → location.endLine = 0 →
        (Text.terminatedLines text.toList).length ≤ config.maxLines →
          config.maxLines + 1 < UInt64.size →
        ∀ part, ∃ snippet, symbolSnippet index read id part config = .ok snippet ∧
          snippet.text = text ∧
          snippet.truncated = false) := by
  refine ⟨?_, ?_⟩
  · intro part snippet shown
    obtain ⟨node, location, text, source, shown⟩ := symbolSnippet_eq_ok_iff.mp shown
    have filled : Text.terminatedLines text.toList ≠ [] := source.lines_ne_nil
    obtain ⟨start, short, shows⟩ := ofLines_bounded filled shown
    have lined := ((Text.lined_terminatedLines text.toList).drop (snippet.startLine - 1)).take
      (min snippet.endLine (Text.terminatedLines text.toList).length - (snippet.startLine - 1))
    rw [shows, slice_eq_take, lined.terminatedLines_flatten]
    have := List.length_take_le (min snippet.endLine (Text.terminatedLines text.toList).length -
      (snippet.startLine - 1))
      ((Text.terminatedLines text.toList).drop (snippet.startLine - 1))
    omega
  · intro node location text source
    refine ⟨?_, ?_⟩
    · intro within room
      refine ⟨_, source.symbolSnippet_eq.trans (ofLines_within within room (by simp)),
        congrArg String.ofList ?_⟩
      obtain ⟨first, ordered, last⟩ := within
      have start : max location.startLine.toNat 1 = location.startLine.toNat := by omega
      have count : min (min location.endLine.toNat
          (location.startLine.toNat + max config.maxLines 1 - 1))
          (Text.terminatedLines text.toList).length - (location.startLine.toNat - 1) =
            min (max 1 config.maxLines)
              (location.endLine.toNat - location.startLine.toNat + 1) := by omega
      simp only [slice_eq_take, fullUpTo, start, count]
    · intro file noStart noEnd whole room part
      refine ⟨_, source.symbolSnippet_eq.trans
        (ofLines_file file noStart noEnd source.lines_ne_nil whole room), ?_, ?_⟩
      · have start : max location.startLine.toNat 1 - 1 = 0 := by
          rw [noStart]
          rfl
        simp only [showing, slice_eq_take, fullUpTo, start, Nat.min_self, Nat.sub_zero,
          List.drop_zero, List.take_length, Text.flatten_terminatedLines, String.ofList_toList]
      · simp [showing, fullUpTo]

end Symbols

/-- A function with a decorator, between other lines. -/
def decoratedText : String := "import os\n@cached\ndef f():\n    return 1\nf()"

def decoratedIndex : RepoIndex :=
  .ofGraph ((∅ : TextMap SymbolNode).insert
    "f" ⟨"f", "f", .function, "", none, none, some ⟨"a.py", 3, 4, 0, 0⟩, none⟩) []

theorem decoratedIndex_source :
    Snippet.Source decoratedIndex (fun _ => some decoratedText) "f"
      ⟨"f", "f", .function, "", none, none, some ⟨"a.py", 3, 4, 0, 0⟩, none⟩ ⟨"a.py", 3, 4, 0, 0⟩
      decoratedText :=
  ⟨by decide +kernel, rfl, by decide, rfl, by decide⟩

theorem decoratedText_within :
    SourceLocation.Within ⟨"a.py", 3, 4, 0, 0⟩
      (Text.terminatedLines decoratedText.toList).length := by
  constructor <;> decide

theorem symbolSnippet_shows_decorated :
    ∃ snippet, symbolSnippet decoratedIndex (fun _ => some decoratedText) "f" .full ⟨1, 40⟩ =
      .ok snippet ∧
      snippet.text = "def f():\n" ∧ (Text.terminatedLines snippet.text.toList).length ≤ 1 := by
  obtain ⟨limit, shows⟩ := symbolSnippet_shows decoratedIndex (fun _ => some decoratedText)
    "f" ⟨1, 40⟩
  obtain ⟨snippet, shown, text⟩ :=
    (shows _ _ _ decoratedIndex_source).1 decoratedText_within (by decide)
  exact ⟨snippet, shown, text.trans (by decide), limit .full snippet shown⟩

end SourceAtlas
