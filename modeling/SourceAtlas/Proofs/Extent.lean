/- The lines that an excerpt reports, also for a location that is older than the file: when they are
lines of the file, and when an excerpt is marked as cut short although it is not. -/
import SourceAtlas.Proofs.Bodies

namespace SourceAtlas

/-- Whether a highlight lies between two lines. -/
def Highlight.Between (first last : Nat) (highlight : Highlight) : Prop :=
  (first ≤ highlight.startLine ∧ highlight.startLine ≤ last) ∧ first ≤ highlight.endLine ∧
    highlight.endLine ≤ last

/-- Whether the lines that an excerpt reports are lines of its file, in their order and with all
highlights. -/
structure SymbolSnippet.Inside (snippet : SymbolSnippet) : Prop where
  first : 1 ≤ snippet.startLine
  ordered : snippet.startLine ≤ snippet.endLine
  last : snippet.endLine ≤ snippet.totalLines
  highlighted : ∀ highlight ∈ snippet.highlights,
    highlight.Between snippet.startLine snippet.endLine

@[simp] theorem Highlight.between_line_iff {first last : Nat} {label : String} {line : Nat} :
    (Highlight.line label line).Between first last ↔ first ≤ line ∧ line ≤ last :=
  and_self_iff

namespace Snippet

section Ends

variable {total first recorded maxLines fallback : Nat}

theorem le_wishedEnd (inside : first ≤ total) :
    first ≤ wishedEnd total first recorded fallback := by
  rw [wishedEnd]
  split <;> omega

theorem wishedEnd_le_iff (inside : first ≤ total) :
    wishedEnd total first recorded fallback ≤ total ↔ recorded ≤ total := by
  rw [wishedEnd]
  split <;> omega

theorem wishedEnd_le : wishedEnd total first recorded fallback ≤ max total recorded := by
  rw [wishedEnd]
  split <;> omega

theorem limitedEnd_le {last : Nat} : limitedEnd total first last maxLines ≤ max total last := by
  rw [limitedEnd]
  split <;> omega

theorem le_limitedEnd_iff {line last : Nat} (positive : 0 < maxLines) (before : line ≤ last)
    (inside : line ≤ total) :
    line ≤ limitedEnd total first last maxLines ↔ line < first + maxLines := by
  rw [limitedEnd]
  split <;> omega

theorem limitedEnd_le_iff {last : Nat} :
    limitedEnd total first last maxLines ≤ total ↔ last ≤ total ∨ first + maxLines ≤ last := by
  rw [limitedEnd]
  split <;> omega

/-- A full excerpt never leaves the file at its end, and it leaves it at its start if its location
does. -/
theorem fullEnd_bounds {kind : NodeKind} {last : Nat} (positive : 0 < maxLines)
    (ended : fullEnd kind first recorded total maxLines fallback = .ok last) :
    last ≤ total ∧ (first ≤ last ↔ first ≤ total) := by
  rw [fullEnd_eq_ok_iff] at ended
  split at ended
  · omega
  · obtain ⟨_, _, rfl⟩ := ended
    refine ⟨Nat.min_le_right _ _, ?_⟩
    constructor
    · intro shown
      exact Nat.le_trans shown (Nat.min_le_right _ _)
    · intro inside
      refine Nat.le_min.mpr ⟨?_, inside⟩
      rw [le_limitedEnd_iff positive (le_wishedEnd inside) inside]
      omega

end Ends

variable {lines : List (List Char)} {location : SourceLocation} {node : SymbolNode}
  {part : SnippetSection} {config : SnippetConfig}

theorem signatureLine_le : signatureLine lines location ≤ lines.length := Nat.min_le_right _ _

theorem headerLine_le : headerLine lines location ≤ signatureLine lines location := Nat.sub_le _ _

theorem signatureLine_le_bodyStart : signatureLine lines location ≤ bodyStart lines location := by
  have inside := @signatureLine_le lines location
  rw [bodyStart]
  omega

theorem bodyStart_le (filled : lines ≠ []) : bodyStart lines location ≤ lines.length := by
  have positive := List.length_pos_iff.mpr filled
  rw [bodyStart]
  omega

theorem fullUpTo_inside_iff {last : Nat} (ends : last ≤ lines.length) :
    (showing node location part config lines (fullUpTo location last)).Inside ↔
      max location.startLine.toNat 1 ≤ last := by
  constructor
  · intro inside
    exact inside.ordered
  · intro ordered
    refine ⟨Nat.le_max_right _ _, ordered, ends, ?_⟩
    intro highlight member
    rcases List.mem_cons.mp member with rfl | later
    · exact Highlight.between_line_iff.mpr ⟨Nat.le_refl _, ordered⟩
    · split at later
      · cases later
      · cases List.mem_singleton.mp later
        exact Highlight.between_line_iff.mpr ⟨ordered, Nat.le_refl _⟩

/-- Of the highlights of a body only the signature can lie beyond its end: those of the body are
left out then. -/
theorem bodyUpTo_inside_iff {last : Nat} (filled : lines ≠ []) :
    (showing node location part config lines (bodyUpTo lines location last)).Inside ↔
      signatureLine lines location ≤ last ∧ last ≤ lines.length := by
  have above := @headerLine_le lines location
  have below := @signatureLine_le_bodyStart lines location
  constructor
  · intro inside
    have signature := inside.highlighted (.line "signature" (signatureLine lines location))
      (List.mem_append_right _ List.mem_cons_self)
    exact ⟨(Highlight.between_line_iff.mp signature).2, inside.last⟩
  · rintro ⟨reached, ends⟩
    refine ⟨headerLine_pos filled location, Nat.le_trans above reached, ends, ?_⟩
    intro highlight member
    rcases List.mem_append.mp member with decorators | member
    · split at decorators
      · next decorated =>
          cases List.mem_singleton.mp decorators
          refine ⟨⟨Nat.le_refl _, Nat.le_trans above reached⟩, ?_⟩
          simp only [showing, bodyUpTo]
          omega
      · cases decorators
    · rcases List.mem_cons.mp member with rfl | body
      · exact Highlight.between_line_iff.mpr ⟨above, reached⟩
      · split at body
        · next started =>
            rcases List.mem_cons.mp body with rfl | ending
            · exact Highlight.between_line_iff.mpr ⟨Nat.le_trans above below, started⟩
            · split at ending
              · cases ending
              · cases List.mem_singleton.mp ending
                exact Highlight.between_line_iff.mpr ⟨Nat.le_trans above reached, Nat.le_refl _⟩
        · cases body

/-- Whether the limit of a body leaves its signature and ends it in the file. -/
theorem bodyEnd_inside_iff (filled : lines ≠ []) {maxLines : Nat} (positive : 0 < maxLines)
    (recorded fallback : Nat) :
    (signatureLine lines location ≤ limitedEnd lines.length (headerLine lines location)
        (wishedEnd lines.length (bodyStart lines location) recorded fallback) maxLines ∧
      limitedEnd lines.length (headerLine lines location)
        (wishedEnd lines.length (bodyStart lines location) recorded fallback) maxLines ≤
          lines.length) ↔
      signatureLine lines location < headerLine lines location + maxLines ∧
        (recorded ≤ lines.length ∨ headerLine lines location + maxLines ≤ recorded) := by
  have start := @bodyStart_le lines location filled
  have below := @signatureLine_le_bodyStart lines location
  have wished := @le_wishedEnd lines.length (bodyStart lines location) recorded fallback start
  rw [le_limitedEnd_iff positive (Nat.le_trans below wished) signatureLine_le, limitedEnd_le_iff,
    wishedEnd_le_iff start]
  -- Beyond the file nothing but the recorded line is wished for.
  have beyond : ¬recorded ≤ lines.length →
      wishedEnd lines.length (bodyStart lines location) recorded fallback = recorded := by
    intro past
    rw [wishedEnd, if_neg (by omega)]
  omega

/-- No location keeps an excerpt from being made; only line numbers whose sums are too large do. -/
theorem exists_ofLines (ends : location.endLine.toNat + 1 < UInt64.size)
    (lasts : lines.length + 1 < UInt64.size)
    (reaches : max location.startLine.toNat 1 + max (max config.maxLines 1) config.fallbackContext <
      UInt64.size) :
    ∃ snippet, ofLines node location part config lines = .ok snippet := by
  by_cases body : part = .body ∧ hasBody node.kind = true
  · have wished := @wishedEnd_le lines.length (bodyStart lines location) location.endLine.toNat
      config.fallbackContext
    have limited := @limitedEnd_le lines.length (headerLine lines location) (max config.maxLines 1)
      (wishedEnd lines.length (bodyStart lines location) location.endLine.toNat
        config.fallbackContext)
    have signature : signatureLine lines location ≤ max location.startLine.toNat 1 :=
      Nat.min_le_left _ _
    have start : bodyStart lines location ≤ signatureLine lines location + 1 := by
      rw [bodyStart]
      omega
    refine ⟨_, ofLines_eq_ok_iff.mpr
      ⟨_, (if_pos body).trans (bodyRange_eq_ok_iff.mpr ⟨?_, ?_, ?_, rfl⟩), ?_, rfl⟩⟩
    · omega
    · omega
    · omega
    · simp only [bodyUpTo]
      omega
  · have wished := @wishedEnd_le lines.length (max location.startLine.toNat 1)
      location.endLine.toNat
      config.fallbackContext
    obtain ⟨last, ended, inside⟩ : ∃ last,
      fullEnd node.kind (max location.startLine.toNat 1) location.endLine.toNat
        lines.length (max config.maxLines 1) config.fallbackContext = .ok last ∧
          last ≤ lines.length := by
      simp only [fullEnd_eq_ok_iff]
      split
      · exact ⟨_, ⟨by omega, rfl⟩, Nat.min_le_left _ _⟩
      · exact ⟨_, ⟨by omega, by omega, rfl⟩, Nat.min_le_right _ _⟩
    refine ⟨_, ofLines_eq_ok_iff.mpr
      ⟨_, (if_neg body).trans (fullRange_eq_ok_iff.mpr ⟨last, ended, rfl⟩), ?_, rfl⟩⟩
    simp only [fullUpTo]
    omega

theorem ofLines_body_inside_iff {snippet : SymbolSnippet} (filled : lines ≠ [])
    (body : hasBody node.kind = true)
    (shown : ofLines node location .body config lines = .ok snippet) :
    HeadedBy lines (signatureLine lines location) snippet.startLine ∧
      (snippet.Inside ↔ signatureLine lines location < snippet.startLine + max config.maxLines 1 ∧
        (location.endLine.toNat ≤ lines.length ∨
          snippet.startLine + max config.maxLines 1 ≤ location.endLine.toNat)) := by
  obtain ⟨range, ranged, _, rfl⟩ := (ofLines_body_eq_ok_iff body).mp shown
  obtain ⟨_, _, _, rfl⟩ := bodyRange_eq_ok_iff.mp ranged
  refine ⟨headedBy_decoratorCount (signatureLine_pos filled location) signatureLine_le, ?_⟩
  rw [bodyUpTo_inside_iff filled]
  exact bodyEnd_inside_iff filled (Nat.lt_of_lt_of_le Nat.zero_lt_one (Nat.le_max_right _ _)) _ _

theorem ofLines_full_inside_iff {snippet : SymbolSnippet} (filled : lines ≠ [])
    (plain : ¬(part = .body ∧ hasBody node.kind = true))
    (shown : ofLines node location part config lines = .ok snippet) :
    snippet.Inside ↔ location.startLine.toNat ≤ lines.length := by
  obtain ⟨range, ranged, _, rfl⟩ := ofLines_eq_ok_iff.mp shown
  rw [if_neg plain] at ranged
  obtain ⟨last, ended, rfl⟩ := fullRange_eq_ok_iff.mp ranged
  obtain ⟨ends, starts⟩ := fullEnd_bounds
    (Nat.lt_of_lt_of_le Nat.zero_lt_one (Nat.le_max_right _ _)) ended
  have positive := List.length_pos_iff.mpr filled
  rw [fullUpTo_inside_iff ends, starts]
  omega

/-- The mark counts the lines that are shown, so it cannot tell recorded lines that just fit from
longer ones. -/
theorem truncated_fullUpTo_iff (symbol : node.kind ≠ .file)
    (within : location.Within lines.length) :
    (showing node location part config lines (fullUpTo location
        (min location.endLine.toNat
          (location.startLine.toNat + max config.maxLines 1 - 1)))).truncated = true ↔
      max config.maxLines 1 < location.endLine.toNat + 1 - location.startLine.toNat ∨
        max config.maxLines 1 = location.endLine.toNat + 1 - location.startLine.toNat ∧
          location.endLine.toNat < lines.length := by
  obtain ⟨first, ordered, last⟩ := within
  have start : max location.startLine.toNat 1 = location.startLine.toNat := by omega
  simp only [showing, fullUpTo, start, symbol, false_or, decide_eq_true_eq]
  omega

end Snippet

open Snippet

section Symbols

variable {index : RepoIndex} {read : String → Option String} {id : String} {node : SymbolNode}
  {location : SourceLocation} {text : String}

/-- The lines of an excerpt are lines of its file exactly when the recorded lines start in the file
or, for a body, when the limit leaves room for the signature and the recorded lines end in the file
or are cut off by the limit. -/
theorem symbolSnippet_inside_iff (source : Source index read id node location text)
    (part : SnippetSection) (config : SnippetConfig) :
    (∀ snippet, symbolSnippet index read id part config = .ok snippet →
      (part = .body ∧ hasBody node.kind = true →
        HeadedBy (Text.terminatedLines text.toList)
          (signatureLine (Text.terminatedLines text.toList) location)
          snippet.startLine ∧
        (snippet.Inside ↔
          signatureLine (Text.terminatedLines text.toList) location <
            snippet.startLine + max config.maxLines 1 ∧
          (location.endLine.toNat ≤ (Text.terminatedLines text.toList).length ∨
            snippet.startLine + max config.maxLines 1 ≤ location.endLine.toNat))) ∧
      (¬(part = .body ∧ hasBody node.kind = true) →
        (snippet.Inside ↔ location.startLine.toNat ≤ (Text.terminatedLines text.toList).length))) ∧
    (location.endLine.toNat + 1 < UInt64.size →
      (Text.terminatedLines text.toList).length + 1 < UInt64.size →
      max location.startLine.toNat 1 + max (max config.maxLines 1) config.fallbackContext <
        UInt64.size →
      ∃ snippet, symbolSnippet index read id part config = .ok snippet) := by
  have filled := source.lines_ne_nil
  rw [source.symbolSnippet_eq]
  refine ⟨?_, exists_ofLines⟩
  intro snippet shown
  refine ⟨?_, ?_⟩
  · rintro ⟨rfl, body⟩
    exact ofLines_body_inside_iff filled body shown
  · intro plain
    exact ofLines_full_inside_iff filled plain shown

theorem symbolSnippet_inside_iff_decorated :
    ∃ snippet, symbolSnippet decoratedIndex (fun _ => some decoratedText) "f" .body {} =
      .ok snippet ∧
      snippet.Inside := by
  obtain ⟨shows, returns⟩ := symbolSnippet_inside_iff decoratedIndex_source .body {}
  obtain ⟨snippet, shown⟩ := returns (by decide) (by decide) (by decide)
  obtain ⟨headed, inside⟩ := (shows snippet shown).1 ⟨rfl, rfl⟩
  refine ⟨snippet, shown, inside.mpr ⟨?_, .inl (by decide)⟩⟩
  have signature : signatureLine (Text.terminatedLines decoratedText.toList) ⟨"a.py", 3, 4, 0, 0⟩ =
      3 := by decide
  have limit : max ({} : SnippetConfig).maxLines 1 = 200 := by decide
  rw [signature, limit]
  omega

/-- An index of one function at given lines. -/
def functionAt (first last : UInt64) : RepoIndex :=
  .ofGraph ((∅ : TextMap SymbolNode).insert
    "f" ⟨"f", "f", .function, "", none, none, some ⟨"a.py", first, last, 0, 0⟩, none⟩) []

theorem functionAt_source (first last : UInt64) {text : String} (filled : text ≠ "") :
    Source (functionAt first last) (fun _ => some text) "f"
      ⟨"f", "f", .function, "", none, none, some ⟨"a.py", first, last, 0, 0⟩, none⟩
      ⟨"a.py", first, last, 0, 0⟩ text :=
  ⟨Std.ExtTreeMap.getElem?_insert_self, rfl, by simp, rfl, filled⟩

/-- A body that ends beyond its file, an excerpt that starts beyond it, and one that ends before the
signature which it highlights. -/
theorem symbolSnippet_outside :
    (∃ snippet, symbolSnippet (functionAt 1 5) (fun _ => some "def f():\n    pass\n") "f" .body {} =
      .ok snippet ∧
      snippet.endLine = 5 ∧ snippet.totalLines = 2 ∧ ¬snippet.Inside) ∧
    (∃ snippet, symbolSnippet (functionAt 7 9) (fun _ => some "def f():\n    pass\n") "f" .full {} =
      .ok snippet ∧
      snippet.startLine = 7 ∧ snippet.endLine = 2 ∧ snippet.totalLines = 2 ∧ ¬snippet.Inside) ∧
    ∃ snippet, symbolSnippet decoratedIndex (fun _ => some decoratedText) "f" .body ⟨1, 40⟩ =
      .ok snippet ∧
      snippet.endLine = 2 ∧ .line "signature" 3 ∈ snippet.highlights ∧ ¬snippet.Inside := by
  refine ⟨?_, ?_, ?_⟩
  · rw [(functionAt_source 1 5 (by decide)).symbolSnippet_eq]
    exact ⟨_, rfl, rfl, rfl, fun inside => absurd inside.last (by decide)⟩
  · rw [(functionAt_source 7 9 (by decide)).symbolSnippet_eq]
    exact ⟨_, rfl, rfl, rfl, rfl, fun inside => absurd inside.ordered (by decide)⟩
  · rw [decoratedIndex_source.symbolSnippet_eq]
    refine ⟨_, rfl, rfl, by decide, fun inside => ?_⟩
    have signature := inside.highlighted (.line "signature" 3) (by decide)
    exact absurd (Highlight.between_line_iff.mp signature).2 (by decide)

/-- An excerpt that leaves out recorded lines is marked as cut short. So is one that leaves out
none, if the recorded lines are exactly as many as the limit allows and the file goes on after
them. -/
theorem symbolSnippet_truncated_iff (source : Source index read id node location text)
    (symbol : node.kind ≠ .file)
    (within : location.Within (Text.terminatedLines text.toList).length)
    (room : location.endLine.toNat + 1 < UInt64.size) (config : SnippetConfig) :
    ∃ snippet, symbolSnippet index read id .full config = .ok snippet ∧
      (snippet.endLine < location.endLine.toNat → snippet.truncated = true) ∧
      ((snippet.truncated = true ↔ snippet.endLine < location.endLine.toNat) ↔
        (location.endLine.toNat + 1 - location.startLine.toNat = max config.maxLines 1 →
          location.endLine.toNat = (Text.terminatedLines text.toList).length)) := by
  refine ⟨_, source.symbolSnippet_eq.trans (ofLines_within within room (by simp)), ?_⟩
  have last := within.last
  have omits : min location.endLine.toNat (location.startLine.toNat + max config.maxLines 1 - 1) <
      location.endLine.toNat ↔
        max config.maxLines 1 < location.endLine.toNat + 1 - location.startLine.toNat := by omega
  rw [truncated_fullUpTo_iff symbol within]
  simp only [showing, fullUpTo, omits]
  refine ⟨Or.inl, ?_⟩
  constructor
  · intro same fits
    exact Decidable.byContradiction fun more => by
      have marked := same.mp (.inr ⟨fits.symm, Nat.lt_of_le_of_ne last more⟩)
      omega
  · intro whole
    constructor
    · rintro (longer | ⟨fits, more⟩)
      · exact longer
      · exact absurd (whole fits.symm) (Nat.ne_of_lt more)
    · exact Or.inl

theorem symbolSnippet_truncated_iff_decorated :
    ∃ snippet, symbolSnippet decoratedIndex (fun _ => some decoratedText) "f" .full ⟨1, 40⟩ =
      .ok snippet ∧
      (snippet.truncated = true ↔ snippet.endLine < 4) := by
  obtain ⟨snippet, shown, _, marked⟩ :=
    symbolSnippet_truncated_iff decoratedIndex_source (by decide)
    decoratedText_within (by decide) ⟨1, 40⟩
  exact ⟨snippet, shown, marked.mpr (by decide)⟩

/-- A function of two lines is shown as a whole, and marked as cut short. -/
theorem symbolSnippet_truncated_whole :
    SourceLocation.Within ⟨"a.py", 1, 2, 0, 0⟩
      (Text.terminatedLines "def f():\n    pass\nf()\n".toList).length ∧
      ∃ snippet, symbolSnippet (functionAt 1 2) (fun _ => some "def f():\n    pass\nf()\n") "f"
        .full ⟨2, 40⟩ =
        .ok snippet ∧ snippet.node.kind = .function ∧ snippet.location = ⟨"a.py", 1, 2, 0, 0⟩ ∧
        snippet.endLine = 2 ∧ snippet.text = "def f():\n    pass\n" ∧ snippet.truncated = true := by
  refine ⟨by constructor <;> decide, ?_⟩
  rw [(functionAt_source 1 2 (by decide)).symbolSnippet_eq]
  exact ⟨_, rfl, rfl, rfl, rfl, by decide, by decide⟩

end Symbols

end SourceAtlas
