/- Compact text: its words stand one space apart, it keeps within its limit, and to compact it once
more has no effect. The last holds because a collapsed text can be told by its form alone, and a cut
and the mark after it keep this form. -/
import Mathlib.Data.List.Chain
import Mathlib.Data.List.DropRight
import SourceAtlas.Text.Summary

namespace SourceAtlas.Text

variable {text : List Char}

/-- Characters that are not blank, at least one. -/
def IsWord (word : List Char) : Prop := word ≠ [] ∧ ∀ c ∈ word, isBlank c = false

/-- The words of which a text is made, with blanks between any two of them and maybe around them. -/
inductive Spells : List Char → List (List Char) → Prop
  | nothing : Spells [] []
  | blank {c : Char} {rest : List Char} {parts : List (List Char)} (space : isBlank c = true)
      (onward : Spells rest parts) : Spells (c :: rest) parts
  | last {word : List Char} (whole : IsWord word) : Spells word [word]
  | word {word rest : List Char} {c : Char} {parts : List (List Char)} (whole : IsWord word)
      (space : isBlank c = true)
      (onward : Spells rest parts) : Spells (word ++ c :: rest) (word :: parts)

theorem words_append_blank {c : Char} (space : isBlank c = true) (before after : List Char) :
    words (before ++ c :: after) = words before ++ words after := by
  rw [words, List.splitOnP_append_cons before after space, List.filter_append, ← words, ← words]

theorem words_of_isWord {word : List Char} (whole : IsWord word) : words word = [word] := by
  rw [words, List.splitOnP_eq_singleton whole.2]
  simp [whole.1]

theorem Spells.words_eq {parts : List (List Char)} (spells : Spells text parts) :
    words text = parts := by
  induction spells with
  | nothing => rfl
  | @blank c rest parts space _ ih =>
      have front := words_append_blank space [] rest
      rw [List.nil_append] at front
      rw [front, ih]
      rfl
  | last whole => exact words_of_isWord whole
  | word whole space _ ih =>
      rw [words_append_blank space, words_of_isWord whole, ih, List.singleton_append]

theorem Spells.isWord {parts : List (List Char)} (spells : Spells text parts) :
    ∀ part ∈ parts, IsWord part := by
  induction spells with
  | nothing => simp
  | blank _ _ ih => exact ih
  | last whole => exact List.forall_mem_singleton.mpr whole
  | word whole _ _ ih => exact List.forall_mem_cons.mpr ⟨whole, ih⟩

theorem exists_spells (text : List Char) : ∃ parts, Spells text parts := by
  induction text with
  | nil => exact ⟨[], .nothing⟩
  | cons c rest ih =>
      obtain ⟨parts, spells⟩ := ih
      by_cases space : isBlank c = true
      · exact ⟨parts, .blank space spells⟩
      · -- The character is a word of its own, or it belongs to the word that the rest begins with.
        have longer {word : List Char} (visible : ∀ d ∈ word, isBlank d = false) :
            IsWord (c :: word) :=
          ⟨by simp, List.forall_mem_cons.mpr ⟨by simpa using space, visible⟩⟩
        cases spells with
        | nothing => exact ⟨[[c]], .last (longer (by simp))⟩
        | blank next onward =>
            exact ⟨[c] :: parts, @Spells.word [c] _ _ _ (longer (by simp)) next onward⟩
        | last whole => exact ⟨[c :: rest], .last (longer whole.2)⟩
        | @word word rest d parts whole next onward =>
            exact ⟨(c :: word) :: parts, .word (longer whole.2) next onward⟩

theorem spells_words (text : List Char) : Spells text (words text) := by
  obtain ⟨parts, spells⟩ := exists_spells text
  rw [spells.words_eq]
  exact spells

/-- No blank stands first, last or beside another one, and every blank is a space. -/
structure Tidy (text : List Char) : Prop where
  plain : ∀ c ∈ text, isBlank c = true → c = ' '
  start : ∀ c ∈ text.head?, isBlank c = false
  finish : ∀ c ∈ text.getLast?, isBlank c = false
  apart : text.IsChain fun c d => isBlank c = true → isBlank d = false

namespace Tidy

variable {first second : List Char}

theorem nil : Tidy [] := ⟨by simp, by simp, by simp, .nil⟩

theorem of_isWord {word : List Char} (whole : IsWord word) : Tidy word where
  plain c member space := absurd space (ne_true_of_eq_false (whole.2 c member))
  start c first := whole.2 c (List.mem_of_mem_head? first)
  finish c last := whole.2 c (List.mem_of_mem_getLast? last)
  apart := by
    rw [List.isChain_iff_forall_rel_of_append_cons_cons]
    intro c d before after split _
    exact whole.2 d (by simp [split])

theorem append (tidy : Tidy first) (tidy' : Tidy second) : Tidy (first ++ second) where
  plain := List.forall_mem_append.mpr ⟨tidy.plain, tidy'.plain⟩
  start := by
    cases first with
    | nil => exact tidy'.start
    | cons c rest => exact tidy.start
  finish := by
    by_cases empty : second = []
    · rw [empty, List.append_nil]
      exact tidy.finish
    · rw [List.getLast?_append_of_ne_nil _ empty]
      exact tidy'.finish
  apart := tidy.apart.append tidy'.apart fun _ _ d start _ => tidy'.start d start

/-- A single space may stand between two tidy texts. -/
theorem spaced (tidy : Tidy first) (tidy' : Tidy second) (filled : first ≠ [])
    (more : second ≠ []) :
    Tidy (first ++ ' ' :: second) where
  plain := List.forall_mem_append.mpr
    ⟨tidy.plain, List.forall_mem_cons.mpr ⟨fun _ => rfl, tidy'.plain⟩⟩
  start := by
    rw [List.head?_append_of_ne_nil _ filled]
    exact tidy.start
  finish := by
    rw [List.getLast?_append_of_ne_nil _ (by simp), List.getLast?_cons_of_ne_nil more]
    exact tidy'.finish
  apart := by
    refine tidy.apart.append (tidy'.apart.cons fun d start _ => tidy'.start d start) ?_
    intro c last d _ space
    exact absurd space (ne_true_of_eq_false (tidy.finish c last))

theorem of_prefix {whole : List Char} (tidy : Tidy whole) (start : first <+: whole)
    (trimmed : ∀ c ∈ first.getLast?, isBlank c = false) : Tidy first where
  plain c member := tidy.plain c (start.subset member)
  start := by
    obtain ⟨rest, rfl⟩ := start
    cases first with
    | nil => simp
    | cons c first => exact tidy.start
  finish := trimmed
  apart := tidy.apart.prefix start

/-- After a blank of a tidy text there is more of it. -/
theorem after_blank {c : Char} (tidy : Tidy (first ++ c :: second)) (space : isBlank c = true) :
    Tidy second ∧ second ≠ [] := by
  have more : second ≠ [] := by
    rintro rfl
    exact absurd space (ne_true_of_eq_false (tidy.finish c (by simp)))
  have chain := List.isChain_cons.mp tidy.apart.right_of_append
  refine ⟨⟨?_, ?_, ?_, chain.2⟩, more⟩
  · intro d member
    exact tidy.plain d (List.mem_append_right _ (List.mem_cons_of_mem c member))
  · intro d next
    exact chain.1 d next space
  · have finish := tidy.finish
    rwa [List.getLast?_append_of_ne_nil _ (by simp), List.getLast?_cons_of_ne_nil more] at finish

end Tidy

theorem intercalate_ne_nil {part : List Char} (whole : IsWord part) (rest : List (List Char)) :
    [' '].intercalate (part :: rest) ≠ [] := by
  cases rest with
  | nil => simpa using whole.1
  | cons next others => simp [whole.1]

theorem tidy_intercalate {parts : List (List Char)} (whole : ∀ part ∈ parts, IsWord part) :
    Tidy ([' '].intercalate parts) := by
  induction parts with
  | nil => exact .nil
  | cons part rest ih =>
      obtain ⟨here, later⟩ := List.forall_mem_cons.mp whole
      cases rest with
      | nil => simpa using Tidy.of_isWord here
      | cons next others =>
          rw [List.intercalate_cons_cons, List.append_assoc, List.singleton_append]
          exact (Tidy.of_isWord here).spaced (ih later) here.1
            (intercalate_ne_nil (List.forall_mem_cons.mp later).1 others)

theorem tidy_collapse (text : List Char) : Tidy (collapse text) :=
  tidy_intercalate (spells_words text).isWord

/-- A tidy text is its own collapsed form. -/
theorem collapse_eq_self (tidy : Tidy text) : collapse text = text := by
  have spells := spells_words text
  generalize words text = parts at spells
  induction spells with
  | nothing => rfl
  | @blank c rest _ space _ _ =>
      exact absurd space (ne_true_of_eq_false (tidy.start c (by simp)))
  | last whole => rw [collapse, words_of_isWord whole, List.intercalate_singleton]
  | @word word rest c _ whole space _ ih =>
      -- The blank does not end the text, so there are words after it.
      obtain ⟨inner, more⟩ := tidy.after_blank space
      have further : words rest ≠ [] := by
        intro wordless
        rw [← ih inner, collapse, wordless] at more
        exact more rfl
      rw [collapse, words_append_blank space, words_of_isWord whole, List.singleton_append,
        List.intercalate_cons_of_ne_nil further, ← collapse, ih inner, tidy.plain c (by simp) space,
        List.append_assoc, List.singleton_append]

/-- A start of a text that has at most so many characters and does not end in a blank. -/
structure TrimmedStart (room : Nat) (whole kept : List Char) : Prop where
  start : kept <+: whole
  within : kept.length ≤ room
  trimmed : ∀ c ∈ kept.getLast?, isBlank c = false

/-- What a limit of characters leaves of a text: all of it if it fits. Otherwise the longest start
of it that leaves three places free and does not end in a blank, and the mark of omission. -/
inductive Abridges (limit : Nat) (whole : List Char) : List Char → Prop
  | fits (short : whole.length ≤ limit) : Abridges limit whole whole
  | cut {kept : List Char} (long : limit < whole.length)
      (start : TrimmedStart (limit - 3) whole kept)
      (longest : ∀ other, TrimmedStart (limit - 3) whole other → other <+: kept) :
        Abridges limit whole (kept ++ ellipsis)

theorem trimEndChars_eq_rdropWhile (text : List Char) :
    trimEndChars text = text.rdropWhile isBlank := rfl

theorem trimmedStart_trimEndChars (room : Nat) (whole : List Char) :
    TrimmedStart room whole (trimEndChars (whole.take room)) := by
  rw [trimEndChars_eq_rdropWhile]
  have start := List.rdropWhile_prefix isBlank (whole.take room)
  refine ⟨start.trans (List.take_prefix room whole),
    start.length_le.trans (List.length_take_le room whole), ?_⟩
  intro c last
  have filled := List.ne_nil_of_mem (List.mem_of_mem_getLast? last)
  have visible := List.rdropWhile_last_not isBlank _ filled
  rw [List.getLast?_eq_some_getLast filled] at last
  cases last
  simpa using visible

/-- Only what no start without a blank at its end can reach is trimmed off. -/
theorem prefix_trimEndChars {other : List Char} (start : other <+: text)
    (trimmed : ∀ c ∈ other.getLast?, isBlank c = false) : other <+: trimEndChars text := by
  rw [trimEndChars_eq_rdropWhile]
  induction text using List.reverseRecOn with
  | nil => exact start
  | append_singleton before c ih =>
      rw [List.rdropWhile_concat]
      split
      · next space =>
          rcases List.prefix_concat_iff.mp start with whole | shorter
          · exact absurd space (ne_true_of_eq_false (trimmed c (by simp [whole])))
          · exact ih shorter
      · exact start

theorem compactChars_abridges (limit : Nat) (text : List Char) :
    Abridges limit (collapse text) (compactChars limit text) := by
  rw [compactChars]
  split
  · next short => exact .fits short
  · next long =>
      refine .cut (Nat.lt_of_not_le long) (trimmedStart_trimEndChars _ _) ?_
      intro other begins
      exact prefix_trimEndChars (List.prefix_take_iff.mpr ⟨begins.start, begins.within⟩)
        begins.trimmed

theorem isWord_ellipsis : IsWord ellipsis := by
  have dot : isBlank '.' = false := rfl
  exact ⟨by simp [ellipsis], by simp [ellipsis, dot]⟩

theorem compactChars_eq_self {limit : Nat} (tidy : Tidy text) (short : text.length ≤ limit) :
    compactChars limit text = text := by
  rw [compactChars, collapse_eq_self tidy, if_pos short]

/-- Where not even the mark of omission fits, it stays. -/
theorem compactChars_ellipsis {limit : Nat} (small : limit < 3) :
    compactChars limit ellipsis = ellipsis := by
  have long : ¬ellipsis.length ≤ limit := Nat.not_le_of_lt small
  rw [compactChars, collapse_eq_self (.of_isWord isWord_ellipsis), if_neg long,
    Nat.sub_eq_zero_of_le small.le, List.take_zero]
  rfl

namespace Abridges

variable {limit : Nat} {whole short : List Char}

theorem length_le (abridges : Abridges limit whole short) : short.length ≤ max limit 3 := by
  cases abridges with
  | fits within => exact within.trans (Nat.le_max_left limit 3)
  | cut _ start _ =>
      have room := start.within
      have mark : ellipsis.length = 3 := rfl
      rw [List.length_append]
      omega

theorem tidy (abridges : Abridges limit whole short) (tidy : Tidy whole) : Tidy short := by
  cases abridges with
  | fits => exact tidy
  | cut _ start _ =>
      exact (tidy.of_prefix start.start start.trimmed).append (.of_isWord isWord_ellipsis)

theorem compactChars_eq_self (abridges : Abridges limit whole short) (tidy : Tidy whole) :
    compactChars limit short = short := by
  by_cases within : short.length ≤ limit
  · exact Text.compactChars_eq_self (abridges.tidy tidy) within
  · cases abridges with
    | fits fit => exact absurd fit within
    | @cut kept _ start _ =>
        -- The mark of omission alone is over the limit, so nothing is kept before it.
        have room := start.within
        have mark : ellipsis.length = 3 := rfl
        rw [List.length_append] at within
        have small : limit < 3 := by omega
        have empty : kept = [] := List.length_eq_zero_iff.mp (by omega)
        rw [empty, List.nil_append]
        exact compactChars_ellipsis small

end Abridges

/-- Compact text is tidy and within the limit, it is the words of the text one space apart or their
longest start with the mark of omission, and it is compact already. -/
theorem compact_abridges (limit : Nat) (text : String) :
    (compact limit text).length ≤ max limit 3 ∧ Tidy (compact limit text).toList ∧
    (∃ parts, Spells text.toList parts ∧
      Abridges limit ([' '].intercalate parts) (compact limit text).toList) ∧
    compact limit (compact limit text) = compact limit text := by
  have short : Abridges limit (collapse text.toList) (compact limit text).toList := by
    rw [compact, String.toList_ofList]
    exact compactChars_abridges limit text.toList
  have tidy := tidy_collapse text.toList
  refine ⟨short.length_le, short.tidy tidy, ⟨words text.toList, spells_words text.toList, short⟩,
    ?_⟩
  rw [compact, short.compactChars_eq_self tidy, String.ofList_toList]

-- A cut next to a space leaves a text that is shorter than its limit.
example : compact 7 " one\ttwo  three" = "one..." := by decide

end SourceAtlas.Text
