/- Texts made of parts with a mark between them: joining and splitting undo each other, the last
mark is before the last part, one part more makes another text, and another mark keeps the parts. -/
import Mathlib.Data.List.Basic
import Mathlib.Data.List.TakeDrop
import SourceAtlas.Path

namespace SourceAtlas.Text

variable {mark : Char} {separator : String}

theorem toList_slash : "/".toList = ['/'] := by decide

theorem toList_dot : ".".toList = ['.'] := by decide

theorem toList_comma : ",".toList = [','] := by decide

theorem toList_bar : "|".toList = ['|'] := by decide

@[simp] theorem join_nil (separator : String) : join separator [] = "" := by
  simp [join]

@[simp] theorem join_singleton (separator part : String) : join separator [part] = part := by
  simp [join]

theorem join_cons (separator part : String) {rest : List String} (more : rest ≠ []) :
    join separator (part :: rest) = part ++ separator ++ join separator rest := by
  obtain ⟨next, others, rfl⟩ := List.exists_cons_of_ne_nil more
  rw [← String.toList_inj]
  simp only [join, String.toList_ofList, String.toList_append, List.map_cons,
    List.intercalate_cons_cons]

theorem join_split (single : separator.toList = [mark]) (text : String) :
    join separator (split mark text) = text := by
  rw [join, split, single, List.map_map]
  have same : String.toList ∘ String.ofList = id := funext fun _ => String.toList_ofList
  rw [same, List.map_id, List.intercalate_splitOn, String.ofList_toList]

theorem split_join (single : separator.toList = [mark]) {parts : List String}
    (plain : ∀ part ∈ parts, mark ∉ part.toList) (filled : parts ≠ []) :
    split mark (join separator parts) = parts := by
  rw [join, split, single, String.toList_ofList, List.splitOn_intercalate, List.map_map]
  · have same : String.ofList ∘ String.toList = id := funext fun _ => String.ofList_toList
    rw [same, List.map_id]
  · exact List.forall_mem_map.mpr plain
  · simpa using filled

theorem split_of_not_mem {text : String} (plain : mark ∉ text.toList) :
    split mark text = [text] := by
  have parts : ∀ part ∈ [text], mark ∉ part.toList := by simpa using plain
  have single : (String.singleton mark).toList = [mark] := by simp
  rw [← split_join single parts (by simp), join_singleton]

theorem split_of_cut {text before after : String}
    (cut : text.toList = before.toList ++ mark :: after.toList) :
    split mark text = split mark before ++ split mark after := by
  rw [split, cut, List.splitOn, List.splitOnP_append_cons _ _ (by simp), List.map_append]
  rfl

theorem not_mem_of_mem_split {text part : String} (member : part ∈ split mark text) :
    mark ∉ part.toList := by
  by_cases marked : mark ∈ text.toList
  · obtain ⟨before, after, cut, plain⟩ := List.eq_append_cons_of_mem marked
    have parts : split mark text = [String.ofList before] ++ split mark (String.ofList after) := by
      rw [← split_of_not_mem (by simpa using plain), ← split_of_cut (by simpa using cut)]
    rw [parts, List.singleton_append] at member
    rcases List.mem_cons.mp member with rfl | later
    · simpa using plain
    · have shorter : after.length < text.length := by
        rw [← text.length_toList, cut, List.length_append, List.length_cons]
        omega
      exact not_mem_of_mem_split later
  · rw [split_of_not_mem marked, List.mem_singleton] at member
    rwa [member]
termination_by text.length

theorem join_ne_empty (separator : String) {part : String} (named : part ≠ "")
    (rest : List String) :
    join separator (part :: rest) ≠ "" := by
  cases rest with
  | nil => rwa [join_singleton]
  | cons next others =>
      rw [join_cons separator part (by simp)]
      simp [named]

theorem join_append (separator : String) {first second : List String} (filled : first ≠ [])
    (more : second ≠ []) :
    join separator (first ++ second) =
      join separator first ++ separator ++ join separator second := by
  induction first with
  | nil => exact absurd rfl filled
  | cons part rest ih =>
      rw [List.cons_append, join_cons separator part (by simp [more])]
      by_cases last : rest = []
      · rw [last, List.nil_append, join_singleton]
      · rw [ih last, join_cons separator part last]
        simp only [String.append_assoc]

/-- A text that is itself joined from parts may stand for them. -/
theorem join_append_join (separator : String) (first : List String) {second : List String}
    (more : second ≠ []) :
    join separator (first ++ [join separator second]) = join separator (first ++ second) := by
  by_cases empty : first = []
  · rw [empty, List.nil_append, List.nil_append, join_singleton]
  · rw [join_append separator empty (by simp), join_append separator empty more, join_singleton]

/-- One part more makes a longer text, unless it is the only one and empty. -/
theorem join_insert_ne (separated : separator ≠ "") {part : String} (named : part ≠ "")
    (first second : List String) :
    join separator (first ++ part :: second) ≠ join separator (first ++ second) := by
  -- Where nothing follows to compare, the lengths differ by the separator.
  have wide : separator.length ≠ 0 := by simpa [String.length_eq_zero_iff] using separated
  induction first with
  | nil =>
      intro same
      cases second with
      | nil => exact named (by simpa using same)
      | cons next rest =>
          rw [List.nil_append, List.nil_append, join_cons separator part (by simp)] at same
          have length := congrArg String.length same
          simp only [String.length_append] at length
          omega
  | cons head rest ih =>
      intro same
      rw [List.cons_append, List.cons_append, join_cons separator head (by simp)] at same
      by_cases last : rest ++ second = []
      · obtain ⟨rfl, rfl⟩ := List.append_eq_nil_iff.mp last
        have length := congrArg String.length same
        simp only [List.append_nil, join_singleton, String.length_append] at length
        omega
      · rw [join_cons separator head last] at same
        exact ih ((String.append_right_inj _).mp same)

theorem not_mem_join {parts : List String} (between : mark ∉ separator.toList)
    (plain : ∀ part ∈ parts, mark ∉ part.toList) : mark ∉ (join separator parts).toList := by
  induction parts with
  | nil => simp
  | cons part rest ih =>
      obtain ⟨here, later⟩ := List.forall_mem_cons.mp plain
      by_cases last : rest = []
      · rw [last, join_singleton]
        exact here
      · rw [join_cons separator part last]
        simp [here, between, ih later]

/-- Joined parts can be told apart when none is empty or has the mark in it. -/
theorem join_inj (single : separator.toList = [mark]) {first second : List String}
    (plain : ∀ part ∈ first, mark ∉ part.toList) (plain' : ∀ part ∈ second, mark ∉ part.toList)
    (named : "" ∉ first) (named' : "" ∉ second) :
    join separator first = join separator second ↔ first = second := by
  refine ⟨fun same => ?_, fun same => by rw [same]⟩
  cases first with
  | nil =>
      cases second with
      | nil => rfl
      | cons part rest =>
          exact absurd same.symm
            (join_ne_empty separator (fun empty => named' (by simp [empty])) rest)
  | cons part rest =>
      cases second with
      | nil =>
          exact absurd same (join_ne_empty separator (fun empty => named (by simp [empty])) rest)
      | cons other others =>
          rw [← split_join single plain (by simp), same, split_join single plain' (by simp)]

theorem forall_ne_of_not_mem {text : List Char} (plain : mark ∉ text) :
    ∀ c ∈ text, decide (c ≠ mark) = true := by
  intro c member
  apply decide_eq_true
  rintro rfl
  exact plain member

theorem cutLast?_of_cut {text before after : String} (plain : mark ∉ after.toList)
    (cut : text.toList = before.toList ++ mark :: after.toList) :
    cutLast? mark text = some (before, after) := by
  have clear := forall_ne_of_not_mem (mt List.mem_reverse.mp plain)
  have turned : text.toList.reverse = after.toList.reverse ++ mark :: before.toList.reverse := by
    rw [cut]
    simp
  rw [cutLast?, turned, List.span_eq_takeWhile_dropWhile, List.takeWhile_append_of_pos clear,
    List.dropWhile_append_of_pos clear]
  simp

theorem cutLast?_of_not_mem {text : String} (plain : mark ∉ text.toList) :
    cutLast? mark text = none := by
  have clear := forall_ne_of_not_mem (mt List.mem_reverse.mp plain)
  have whole : text.toList.reverse = text.toList.reverse ++ [] := (List.append_nil _).symm
  rw [cutLast?, whole, List.span_eq_takeWhile_dropWhile, List.takeWhile_append_of_pos clear,
    List.dropWhile_append_of_pos clear, List.dropWhile_nil]

theorem replaceChar_append (old new : Char) (first second : String) :
    replaceChar old new (first ++ second) =
      replaceChar old new first ++ replaceChar old new second := by
  simp [replaceChar]

theorem replaceChar_of_not_mem {text : String} (plain : mark ∉ text.toList) (new : Char) :
    replaceChar mark new text = text := by
  have kept : text.toList.map (fun c => if c = mark then new else c) = text.toList.map id :=
    List.map_congr_left fun c member => if_neg (ne_of_mem_of_not_mem member plain)
  rw [replaceChar, kept, List.map_id, String.ofList_toList]

/-- Another mark between the same parts. -/
theorem replaceChar_join {other : Char} {separator' : String} (single : separator.toList = [mark])
    (single' : separator'.toList = [other]) {parts : List String}
    (plain : ∀ part ∈ parts, mark ∉ part.toList) :
    replaceChar mark other (join separator parts) = join separator' parts := by
  have between : replaceChar mark other separator = separator' := by
    rw [← String.toList_inj, replaceChar, single, single']
    simp
  induction parts with
  | nil => simp [replaceChar]
  | cons part rest ih =>
      obtain ⟨here, later⟩ := List.forall_mem_cons.mp plain
      by_cases last : rest = []
      · rw [last, join_singleton, join_singleton, replaceChar_of_not_mem here]
      · rw [join_cons _ part last, join_cons _ part last, replaceChar_append, replaceChar_append,
          between, ih later, replaceChar_of_not_mem here]

theorem dropEnd?_eq_some_iff {tail text rest : String} :
    dropEnd? tail text = some rest ↔ text = rest ++ tail := by
  rw [dropEnd?, Option.map_eq_some_iff]
  simp only [List.isSuffixOf?_eq_some_iff_append_eq]
  constructor
  · rintro ⟨front, cut, rfl⟩
    rw [← String.toList_inj, String.toList_append, String.toList_ofList, cut]
  · rintro rfl
    exact ⟨rest.toList, by simp, String.ofList_toList⟩

theorem head?_join (separator : String) {part : String} (named : part ≠ "") (rest : List String) :
    (join separator (part :: rest)).toList.head? = part.toList.head? := by
  by_cases last : rest = []
  · rw [last, join_singleton]
  · have filled : part.toList ≠ [] := by simpa using named
    rw [join_cons separator part last, String.toList_append, String.toList_append,
      List.append_assoc, List.head?_append_of_ne_nil _ filled]

theorem getLast?_join (separator : String) (before : List String) {part : String}
    (named : part ≠ "") :
    (join separator (before ++ [part])).toList.getLast? = part.toList.getLast? := by
  by_cases only : before = []
  · rw [only, List.nil_append, join_singleton]
  · have filled : part.toList ≠ [] := by simpa using named
    rw [join_append separator only (by simp), join_singleton, String.toList_append,
      List.getLast?_append_of_ne_nil _ filled]

theorem dropWhile_of_head? {drop : Char → Bool} {text : List Char}
    (start : ∀ c ∈ text.head?, drop c = false) :
    text.dropWhile drop = text := by
  cases text with
  | nil => rfl
  | cons c rest => exact List.dropWhile_cons_of_neg (by simp [start c rfl])

theorem trimWhere_eq_self {drop : Char → Bool} {text : String}
    (start : ∀ c ∈ text.toList.head?, drop c = false)
    (finish : ∀ c ∈ text.toList.getLast?, drop c = false) : trimWhere drop text = text := by
  rw [← List.head?_reverse] at finish
  rw [trimWhere, dropWhile_of_head? start, dropWhile_of_head? finish, List.reverse_reverse,
    String.ofList_toList]

/-- Nothing is trimmed off where no part has anything to trim. -/
theorem trimWhere_join {drop : Char → Bool} (separator : String) {parts : List String}
    (kept : ∀ part ∈ parts, part ≠ "" ∧ ∀ c ∈ part.toList, drop c = false) :
    trimWhere drop (join separator parts) = join separator parts := by
  refine trimWhere_eq_self (fun c first => ?_) (fun c last => ?_)
  · cases parts with
    | nil => simp at first
    | cons part rest =>
        obtain ⟨named, keep⟩ := kept part List.mem_cons_self
        rw [head?_join separator named rest] at first
        exact keep c (List.mem_of_mem_head? first)
  · rcases List.eq_nil_or_concat parts with rfl | ⟨before, part, rfl⟩
    · simp at last
    · rw [List.concat_eq_append] at kept last
      obtain ⟨named, keep⟩ := kept part (by simp)
      rw [getLast?_join separator before named] at last
      exact keep c (List.mem_of_mem_getLast? last)

end SourceAtlas.Text

namespace SourceAtlas.Path

theorem pieces_append (first second : String) :
    pieces (first ++ "/" ++ second) = pieces first ++ pieces second :=
  Text.split_of_cut (by simp)

end SourceAtlas.Path
