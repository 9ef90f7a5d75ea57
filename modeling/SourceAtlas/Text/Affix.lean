/- Leading and trailing parts of text: tests, removal and cuts at a separator. -/

namespace SourceAtlas.Text

/-- What follows a given leading part, if the text starts with it. -/
def dropStart? (lead text : String) : Option String :=
  (lead.toList.isPrefixOf? text.toList).map String.ofList

/-- What stands before a given trailing part, if the text ends with it. -/
def dropEnd? (tail text : String) : Option String :=
  (tail.toList.isSuffixOf? text.toList).map String.ofList

def startsWith (text lead : String) : Bool :=
  lead.toList.isPrefixOf text.toList

/-- Whether a text occurs inside another, at any position. -/
def occursIn (needle text : List Char) : Bool :=
  match text with
  | [] => needle.isEmpty
  | c :: rest => needle.isPrefixOf (c :: rest) || occursIn needle rest

/-- The parts of a text between the occurrences of a separator.
There is always one part more than there are separators. -/
def split (separator : Char) (text : String) : List String :=
  (text.toList.splitOn separator).map String.ofList

/-- The two parts of a text around the first occurrence of a separator. -/
def cutFirst? (separator : Char) (text : String) : Option (String × String) :=
  match text.toList.span (· ≠ separator) with
  | (_, []) => none
  | (before, _ :: after) => some (String.ofList before, String.ofList after)

/-- The two parts of a text around the last occurrence of a separator. -/
def cutLast? (separator : Char) (text : String) : Option (String × String) :=
  match text.toList.reverse.span (· ≠ separator) with
  | (_, []) => none
  | (after, _ :: before) => some (String.ofList before.reverse, String.ofList after.reverse)

/-- Two cuts of a text at a character that neither has after the other's cut are the same cut. -/
theorem eq_of_cut_last {before after first second : List Char} {mark other : Char}
    (left : other ∉ first) (right : mark ∉ second)
    (same : before ++ mark :: first = after ++ other :: second) :
    before = after ∧ mark = other ∧ first = second := by
  rcases List.append_eq_append_iff.mp same with ⟨rest, longer, cut⟩ | ⟨rest, longer, cut⟩
  · cases rest with
    | nil =>
        rw [List.append_nil] at longer
        exact ⟨longer.symm, List.cons.inj cut⟩
    | cons head tail =>
        rw [List.cons_append, List.cons.injEq] at cut
        exact absurd (cut.2 ▸ by simp) left
  · cases rest with
    | nil =>
        rw [List.append_nil] at longer
        obtain ⟨marks, parts⟩ := List.cons.inj cut
        exact ⟨longer, marks.symm, parts.symm⟩
    | cons head tail =>
        rw [List.cons_append, List.cons.injEq] at cut
        exact absurd (cut.2 ▸ by simp) right

/-- Text without the characters of a class at either end. -/
def trimWhere (drop : Char → Bool) (text : String) : String :=
  String.ofList (((text.toList.dropWhile drop).reverse.dropWhile drop).reverse)

/-- Text with every occurrence of one character replaced by another. -/
def replaceChar (old new : Char) (text : String) : String :=
  String.ofList (text.toList.map fun c => if c = old then new else c)

/-- Texts joined with a separator between neighbours. -/
def join (separator : String) (parts : List String) : String :=
  String.ofList (separator.toList.intercalate (parts.map String.toList))

/-- Upper-case letters of ASCII become lower case; every other character stays. -/
def asciiLower (text : String) : String :=
  String.ofList (text.toList.map Char.toLower)

/-- Lower-case letters of ASCII become upper case; every other character stays. -/
def asciiUpper (text : String) : String :=
  String.ofList (text.toList.map Char.toUpper)

end SourceAtlas.Text
