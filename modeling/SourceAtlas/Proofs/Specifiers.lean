/- The files that relative specifiers lead to. A specifier is read from the directory of its
importer, one step after the other, so that two specifiers may be read in turn or as one. Above the
top of the repository a step to the parent has no effect, so a specifier that leads out of the
repository is taken for one that stays inside. -/
import SourceAtlas.Linking.JavaScript
import SourceAtlas.Proofs.Segments

namespace SourceAtlas

namespace Path

/-- The parts of a path between slashes that are not empty. -/
def segments (path : String) : List String := (pieces path).filter (· ≠ "")

/-- The directories on the way to a file, from the top. -/
def directories (path : String) : List String := (pieces path).dropLast.filter (· ≠ "")

/-- Steps lead from one directory to another. The number counts the steps that would leave the
top. -/
inductive Leads : Nat → List String → List String → List String → Prop
  | done (here : List String) : Leads 0 here [] here
  | stay {excess : Nat} {here rest there : List String} {step : String}
      (idle : step = "" ∨ step = ".")
      (onward : Leads excess here rest there) : Leads excess here (step :: rest) there
  | climb {excess : Nat} {here rest there : List String} {name : String}
      (onward : Leads excess here rest there) :
      Leads excess (here ++ [name]) (".." :: rest) there
  | leave {excess : Nat} {rest there : List String} (onward : Leads excess [] rest there) :
      Leads (excess + 1) [] (".." :: rest) there
  | enter {excess : Nat} {here rest there : List String} {name : String}
      (named : name ≠ "" ∧ name ≠ "." ∧ name ≠ "..")
      (onward : Leads excess (here ++ [name]) rest there) :
      Leads excess here (name :: rest) there

theorem advance_idle {step : String} (idle : step = "" ∨ step = ".") (here : List String) :
    advance here step = here :=
  if_pos idle

@[simp] theorem advance_parent (here : List String) : advance here ".." = here.dropLast := by
  rw [advance, if_neg (by decide), if_pos rfl]

theorem advance_name {name : String} (named : name ≠ "" ∧ name ≠ "." ∧ name ≠ "..")
    (here : List String) :
    advance here name = here ++ [name] := by
  rw [advance, if_neg (not_or.mpr ⟨named.1, named.2.1⟩), if_neg named.2.2]

theorem Leads.foldl_advance {excess : Nat} {here steps there : List String}
    (leads : Leads excess here steps there) :
    steps.foldl advance here = there := by
  induction leads with
  | done here => rfl
  | stay idle _ ih => rw [List.foldl_cons, advance_idle idle, ih]
  | climb _ ih => rw [List.foldl_cons, advance_parent, List.dropLast_concat, ih]
  | leave _ ih => rw [List.foldl_cons, advance_parent, List.dropLast_nil, ih]
  | enter named _ ih => rw [List.foldl_cons, advance_name named, ih]

theorem exists_leads (here steps : List String) :
    ∃ excess, Leads excess here steps (steps.foldl advance here) := by
  induction steps generalizing here with
  | nil => exact ⟨0, .done here⟩
  | cons step rest ih =>
      rw [List.foldl_cons]
      by_cases idle : step = "" ∨ step = "."
      · obtain ⟨excess, onward⟩ := ih here
        rw [advance_idle idle]
        exact ⟨excess, .stay idle onward⟩
      · obtain ⟨filled, other⟩ := not_or.mp idle
        by_cases parent : step = ".."
        · subst parent
          rw [advance_parent]
          -- At the top there is no directory to leave, and the step is counted instead.
          rcases List.eq_nil_or_concat here with rfl | ⟨before, last, rfl⟩
          · obtain ⟨excess, onward⟩ := ih []
            exact ⟨excess + 1, .leave onward⟩
          · obtain ⟨excess, onward⟩ := ih before
            rw [List.concat_eq_append, List.dropLast_concat]
            exact ⟨excess, .climb onward⟩
        · obtain ⟨excess, onward⟩ := ih (here ++ [step])
          rw [advance_name ⟨filled, other, parent⟩]
          exact ⟨excess, .enter ⟨filled, other, parent⟩ onward⟩

/-- A segment of the place that is reached was one at the start, or a step named it. -/
theorem Leads.mem_of_mem {excess : Nat} {here steps there : List String}
    (leads : Leads excess here steps there) {segment : String} (member : segment ∈ there) :
    segment ∈ here ∨ segment ∈ steps ∧ segment ≠ "" ∧ segment ≠ "." ∧ segment ≠ ".." := by
  induction leads with
  | done here => exact .inl member
  | stay _ _ ih => exact (ih member).imp_right (And.imp_left (List.mem_cons_of_mem _))
  | climb _ ih =>
      exact (ih member).imp (List.mem_append_left _) (And.imp_left (List.mem_cons_of_mem _))
  | leave _ ih => exact (ih member).imp_right (And.imp_left (List.mem_cons_of_mem _))
  | enter named _ ih =>
      rcases ih member with inside | ⟨later, given⟩
      · rcases List.mem_append.mp inside with before | last
        · exact .inl before
        · cases List.mem_singleton.mp last
          exact .inr ⟨List.mem_cons_self, named⟩
      · exact .inr ⟨List.mem_cons_of_mem _ later, given⟩

theorem Leads.named {excess : Nat} {here steps there : List String}
    (leads : Leads excess here steps there) (named : "" ∉ here) : "" ∉ there := by
  intro empty
  rcases leads.mem_of_mem empty with before | ⟨-, given, -⟩
  · exact named before
  · exact given rfl

theorem joinRelative_eq (base relative : String) :
    joinRelative base relative = Text.join "/" ((pieces relative).foldl advance (segments base)) :=
      rfl

theorem mem_segments {path segment : String} (member : segment ∈ segments path) :
    segment ≠ "" ∧ '/' ∉ segment.toList := by
  obtain ⟨piece, named⟩ := List.mem_filter.mp member
  exact ⟨by simpa using named, Text.not_mem_of_mem_split piece⟩

/-- Segments that are written as a text are read back from it, also when there are none. -/
theorem segments_join {place : List String}
    (plain : ∀ segment ∈ place, segment ≠ "" ∧ '/' ∉ segment.toList) :
    segments (Text.join "/" place) = place := by
  by_cases top : place = []
  · rw [top, Text.join_nil]
    decide
  · rw [segments, pieces, Text.split_join Text.toList_slash
      (fun segment member => (plain segment member).2) top, List.filter_eq_self]
    intro segment member
    exact decide_eq_true (plain segment member).1

theorem Leads.plain {excess : Nat} {base relative segment : String} {place : List String}
    (leads : Leads excess (segments base) (pieces relative) place) (member : segment ∈ place) :
    segment ≠ "" ∧ '/' ∉ segment.toList := by
  rcases leads.mem_of_mem member with before | ⟨named, filled, -⟩
  · exact mem_segments before
  · exact ⟨filled, Text.not_mem_of_mem_split named⟩

/-- The segments of a join: where the steps of the relative path lead from those of its base. -/
@[simp] theorem segments_joinRelative (base relative : String) :
    segments (joinRelative base relative) = (pieces relative).foldl advance (segments base) := by
  obtain ⟨excess, leads⟩ := exists_leads (segments base) (pieces relative)
  rw [joinRelative_eq, segments_join fun segment member => leads.plain member]

/-- Relative paths act on directories: two of them in turn lead where the two with a slash between
them lead, and an empty one has no effect. A join is made of the segments at which the steps arrive,
and of these only segments of the base can stand for a directory itself or for its parent. -/
theorem joinRelative_joinRelative (base first second : String) :
    joinRelative (joinRelative base first) second = joinRelative base (first ++ "/" ++ second) ∧
    joinRelative (joinRelative base first) "" = joinRelative base first ∧
    ∃ excess place, Leads excess (segments base) (pieces first) place ∧
      joinRelative base first = Text.join "/" place ∧
      ∀ segment ∈ place, segment ≠ "" ∧ '/' ∉ segment.toList ∧
        (segment = "." ∨ segment = ".." → segment ∈ segments base) := by
  refine ⟨?_, ?_, ?_⟩
  · rw [joinRelative_eq, segments_joinRelative, joinRelative_eq, pieces_append, List.foldl_append]
  · have idle : pieces "" = [""] := by decide
    rw [joinRelative_eq, segments_joinRelative, joinRelative_eq, idle, List.foldl_cons,
      List.foldl_nil, advance_idle (.inl rfl)]
  · obtain ⟨excess, leads⟩ := exists_leads (segments base) (pieces first)
    refine ⟨excess, _, leads, joinRelative_eq base first, ?_⟩
    intro segment member
    obtain ⟨named, plain⟩ := leads.plain member
    refine ⟨named, plain, ?_⟩
    intro dots
    rcases leads.mem_of_mem member with before | ⟨-, -, here, parent⟩
    · exact before
    · exact absurd dots (not_or.mpr ⟨here, parent⟩)

theorem empty_not_mem_directories (path : String) : "" ∉ directories path := by
  simp [directories]

/-- A file lies in the directory that its path names before the last slash. -/
@[simp] theorem segments_parent (path : String) : segments (parent path) = directories path := by
  by_cases nested : '/' ∈ path.toList
  · -- The last slash is the first one from behind.
    obtain ⟨last, before, turned, plain⟩ := List.eq_append_cons_of_mem (List.mem_reverse.mpr nested)
    have cut : path.toList = (String.ofList before.reverse).toList ++ '/' ::
        (String.ofList last.reverse).toList := by
      rw [← List.reverse_reverse path.toList, turned]
      simp
    have clear : '/' ∉ (String.ofList last.reverse).toList := by simpa using plain
    have split : pieces path = pieces (String.ofList before.reverse) ++
        [String.ofList last.reverse] := by
      rw [pieces, Text.split_of_cut cut, Text.split_of_not_mem clear]
      rfl
    rw [parent, Text.cutLast?_of_cut clear cut, directories, split, List.dropLast_concat]
    rfl
  · have whole : pieces path = [path] := Text.split_of_not_mem nested
    have top : segments "" = [] := by decide
    rw [parent, Text.cutLast?_of_not_mem nested, directories, whole]
    exact top

end Path

namespace JavaScript

open SourceAtlas.Path

variable {tables : SymbolTables} {importer specifier file : String}

/-- The files that a place may mean, in the order in which they are tried: those named like it and
those that stand for it as a directory. The top has no name. -/
def probes (place : List String) : List String :=
  (if place = [] then [] else suffixes.map (Text.join "/" place ++ ·)) ++
    indexFiles.map fun index => Text.join "/" (place ++ [index])

/-- Of some files, the first that is registered. -/
def FirstRegistered (tables : SymbolTables) (files : List String) (file : String) : Prop :=
  ∃ earlier later, files = earlier ++ file :: later ∧ tables.hasFile file = true ∧
    ∀ other ∈ earlier, tables.hasFile other = false

theorem find?_hasFile_eq_some_iff {files : List String} :
    files.find? tables.hasFile = some file ↔ FirstRegistered tables files file := by
  rw [List.find?_eq_some_iff_append, FirstRegistered]
  simp only [Bool.not_eq_true']
  constructor
  · rintro ⟨known, earlier, later, split, missed⟩
    exact ⟨earlier, later, split, known, missed⟩
  · rintro ⟨earlier, later, split, known, missed⟩
    exact ⟨known, earlier, later, split, missed⟩

theorem candidates_join {place : List String} (named : "" ∉ place) :
    candidates (Text.join "/" place) = probes place := by
  cases place with
  | nil => simp [candidates, probes]
  | cons name rest =>
      have filled : Text.join "/" (name :: rest) ≠ "" :=
        Text.join_ne_empty "/" (fun empty => named (by simp [empty])) rest
      have below (index : String) :
          Text.join "/" (name :: rest ++ [index]) =
            Text.join "/" (name :: rest) ++ "/" ++ index := by
        rw [Text.join_append "/" (by simp) (by simp), Text.join_singleton]
      rw [candidates, if_neg filled, probes, if_neg (by simp)]
      simp only [below]

theorem probes_ne_nil (place : List String) : probes place ≠ [] := by
  simp [probes, indexFiles]

theorem relativeFile?_eq_some_iff : relativeFile? tables importer specifier = some file ↔
    Text.startsWith specifier "." = true ∧ ∃ excess there,
      Leads excess (directories importer) (pieces specifier) there ∧
        FirstRegistered tables (probes there) file := by
  obtain ⟨excess, leads⟩ := exists_leads (directories importer) (pieces specifier)
  have tried : candidates (joinRelative (parent importer) specifier) =
      probes ((pieces specifier).foldl advance (directories importer)) := by
    rw [joinRelative_eq, segments_parent,
      candidates_join (leads.named (empty_not_mem_directories importer))]
  rw [relativeFile?, tried]
  split
  · next relative =>
      rw [find?_hasFile_eq_some_iff, and_iff_right relative]
      constructor
      · intro first
        exact ⟨excess, _, leads, first⟩
      · rintro ⟨other, there, reached, first⟩
        rw [reached.foldl_advance]
        exact first
  · next absolute => simp [absolute]

/-- A specifier means a file: it is relative, its steps lead from the importer's directory to some
place without ever leaving the repository, and of the files that this place may mean the file is the
first registered one. -/
def Means (tables : SymbolTables) (importer specifier file : String) : Prop :=
  Text.startsWith specifier "." = true ∧ ∃ there,
    Leads 0 (directories importer) (pieces specifier) there ∧
      FirstRegistered tables (probes there) file

/-- Whatever is registered, a specifier leads to just the file that it means, if and only if it does
not climb above the top. Those that do lead to files as well: the steps above the top are passed
over. -/
theorem relativeFile?_means_iff (importer specifier : String) :
    ((∀ tables file, relativeFile? tables importer specifier = some file ↔
      Means tables importer specifier file) ↔
      (Text.startsWith specifier "." = true → ∃ there,
        Leads 0 (directories importer) (pieces specifier) there)) ∧
    ∀ tables file, relativeFile? tables importer specifier = some file ↔
      Text.startsWith specifier "." = true ∧ ∃ excess there,
        Leads excess (directories importer) (pieces specifier) there ∧
          FirstRegistered tables (probes there) file := by
  refine ⟨⟨fun just relative => ?_, fun inside tables file => ?_⟩,
    fun _ _ => relativeFile?_eq_some_iff⟩
  · -- With its first probe registered alone, any relative specifier finds a file.
    obtain ⟨excess, leads⟩ := exists_leads (directories importer) (pieces specifier)
    obtain ⟨first, rest, tried⟩ := List.exists_cons_of_ne_nil
      (probes_ne_nil ((pieces specifier).foldl advance (directories importer)))
    have known : (SymbolTables.replay [.file "" first first]).hasFile first = true := by
      simp [SymbolTables.replay, SymbolTables.record, SymbolTables.recordFile, SymbolTables.hasFile,
        SymbolTables.moduleOfFile?]
    have found := relativeFile?_eq_some_iff.mpr
      ⟨relative, excess, _, leads, [], rest, tried, known, by simp⟩
    obtain ⟨-, there, within, -⟩ := (just _ _).mp found
    exact ⟨there, within⟩
  · rw [relativeFile?_eq_some_iff, Means]
    refine and_congr_right fun relative => ⟨?_, ?_⟩
    · rintro ⟨excess, there, leads, first⟩
      obtain ⟨place, within⟩ := inside relative
      have same : place = there := within.foldl_advance.symm.trans leads.foldl_advance
      exact ⟨there, same ▸ within, first⟩
    · rintro ⟨there, within, first⟩
      exact ⟨0, there, within, first⟩

/-- A specifier that leads out of the repository finds a file at its top. -/
theorem relativeFile?_out_of_repository :
    relativeFile? (.replay [.file "util" "util.js" "file:util.js"]) "main.js" "../util" =
      some "util.js" ∧
      ¬Means (.replay [.file "util" "util.js" "file:util.js"]) "main.js" "../util" "util.js" := by
  refine ⟨by decide +kernel, ?_⟩
  rintro ⟨-, there, within, -⟩
  have top : directories "main.js" = [] := by decide
  have steps : pieces "../util" = ["..", "util"] := by decide
  rw [top, steps] at within
  generalize place : ([] : List String) = here at within
  cases within with
  | stay idle => simp at idle
  | climb => simp at place
  | enter named => exact named.2.2 rfl

end JavaScript

end SourceAtlas
