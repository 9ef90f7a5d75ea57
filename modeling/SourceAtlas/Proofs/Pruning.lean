/- Which files a scan without a limit finds. A directory is left out when patterns exclude it, or an
imagined file in it whose name is an underscore, so that a pattern for some files can take the
others along with them. -/
import Mathlib.Data.List.Infix
import Mathlib.Tactic.MkIffOfInductiveProp
import SourceAtlas.Proofs.Quota

namespace SourceAtlas

/-- A file in a tree, with the names that lead to it. -/
inductive FileTree.Holds : FileTree → Place → ByteArray → Prop
  | file (bytes : ByteArray) : Holds (.file bytes) [] bytes
  | entry {entries : List (String × FileTree)} {name : String} {child : FileTree} {rest : Place}
      {bytes : ByteArray} :
      (name, child) ∈ entries → Holds child rest bytes →
        Holds (.directory entries) (name :: rest) bytes

theorem FileTree.holds_of_get? {tree : FileTree} {place : Place} {bytes : ByteArray}
    (found : tree.get? place = some (.file bytes)) : tree.Holds place bytes := by
  induction place generalizing tree with
  | nil =>
      obtain rfl := Option.some.inj found
      exact .file bytes
  | cons name place ih =>
      obtain ⟨entries, child, rfl, known, inside⟩ := get?_cons_eq_some found
      obtain ⟨before, after, rfl, _⟩ := List.lookup_eq_some_iff.mp known
      exact .entry (by simp) (ih inside)

namespace Scan

variable {filter : PathFilter} {maxFileSize : Nat}

/-- Whether every directory on the way from one place to a file below it is entered. -/
def Opened (filter : PathFilter) : Place → Place → Prop
  | start, name :: next :: rest =>
      enters filter start name = true ∧ Opened filter (start ++ [name]) (next :: rest)
  | _, _ => True

theorem mem_filesHere {start : Place} {entries : List (String × FileTree)} {found : Found} :
    found ∈ filesHere start entries ↔
      ∃ name bytes, (name, .file bytes) ∈ entries ∧
        found = ⟨relativePath (start ++ [name]), bytes⟩ := by
  rw [filesHere, List.mem_filterMap]
  constructor
  · rintro ⟨⟨name, tree⟩, member, here⟩
    cases tree with
    | file bytes => exact ⟨name, bytes, member, (Option.some.inj here).symm⟩
    | link target => cases here
    | directory inner => cases here
  · rintro ⟨name, bytes, member, rfl⟩
    exact ⟨_, member, rfl⟩

theorem mem_filesBelow {start : Place} {entries : List (String × FileTree)} {found : Found} :
    found ∈ filesBelow filter start entries ↔
      ∃ name child, (name, child) ∈ entries ∧ enters filter start name = true ∧
        found ∈ filesOf filter (start ++ [name]) child := by
  induction entries with
  | nil => simp [filesBelow]
  | cons entry rest ih =>
      obtain ⟨name, child⟩ := entry
      rw [filesBelow, List.mem_append, ih]
      constructor
      · rintro (first | ⟨other, tree, member, opened, inside⟩)
        · split at first
          · next opened => exact ⟨name, child, by simp, opened, first⟩
          · cases first
        · exact ⟨other, tree, by simp [member], opened, inside⟩
      · rintro ⟨other, tree, member, opened, inside⟩
        rcases List.mem_cons.mp member with same | later
        · cases same
          exact .inl (by rwa [if_pos opened])
        · exact .inr ⟨other, tree, later, opened, inside⟩

theorem filesOf_of_holds {tree : FileTree} {rest : Place} {bytes : ByteArray}
    (held : tree.Holds rest bytes) {start : Place} (inside : rest ≠ [])
    (opened : Opened filter start rest) :
    ⟨relativePath (start ++ rest), bytes⟩ ∈ filesOf filter start tree := by
  induction held generalizing start with
  | file bytes => exact absurd rfl inside
  | @entry entries name child rest bytes member deeper ih =>
      rw [filesOf, List.mem_append]
      cases rest with
      | nil =>
          cases deeper
          exact .inl (mem_filesHere.mpr ⟨name, bytes, member, rfl⟩)
      | cons next rest =>
          refine .inr (mem_filesBelow.mpr ⟨name, child, member, opened.1, ?_⟩)
          simpa using ih (by simp) opened.2

theorem holds_of_filesOf {found : Found} (tree : FileTree) {start : Place}
    (listed : found ∈ filesOf filter start tree) :
    ∃ rest, rest ≠ [] ∧ tree.Holds rest found.bytes ∧ found.path = relativePath (start ++ rest) ∧
      Opened filter start rest := by
  -- The entries of a directory are a list of trees, so the recursion is on the size of the tree.
  match tree with
  | .file bytes => cases listed
  | .link target => cases listed
  | .directory entries =>
      rw [filesOf, List.mem_append] at listed
      rcases listed with here | below
      · obtain ⟨name, bytes, member, rfl⟩ := mem_filesHere.mp here
        exact ⟨[name], by simp, .entry member (.file bytes), rfl, trivial⟩
      · obtain ⟨name, child, member, enter, listed⟩ := mem_filesBelow.mp below
        have smaller : sizeOf child < 1 + sizeOf entries := by
          have inside := List.sizeOf_lt_of_mem member
          rw [Prod.mk.sizeOf_spec] at inside
          omega
        obtain ⟨rest, inside, held, path, opened⟩ := holds_of_filesOf child listed
        refine ⟨name :: rest, by simp, .entry member held, by simpa using path, ?_⟩
        cases rest with
        | nil => exact absurd rfl inside
        | cons next rest => exact ⟨enter, opened⟩
termination_by tree

/-- The directories that lead to a place, from the top down. -/
def directoriesAbove (place : Place) : List Place := place.dropLast.inits.tail

theorem directoriesAbove_cons (name next : String) (rest : Place) :
    directoriesAbove (name :: next :: rest) =
      [name] :: (directoriesAbove (next :: rest)).map (name :: ·) := by
  rw [directoriesAbove, directoriesAbove, List.dropLast_cons_cons, List.inits_cons, List.tail_cons]
  cases (next :: rest).dropLast <;> simp

theorem enters_iff {start : Place} {name : String} :
    enters filter start name = true ↔ name ∉ skippedDirectories ∧
      filter.excluded (relativePath (start ++ [name]) ++ "/") = false ∧
      filter.excluded (relativePath (start ++ [name]) ++ "/_") = false := by
  simp [enters, and_assoc]

theorem opened_iff {start rest : Place} :
    Opened filter start rest ↔ (∀ name ∈ rest.dropLast, name ∉ skippedDirectories) ∧
      (∀ directory ∈ directoriesAbove rest,
        filter.excluded (relativePath (start ++ directory) ++ "/") = false) ∧
      ∀ directory ∈ directoriesAbove rest,
        filter.excluded (relativePath (start ++ directory) ++ "/_") = false := by
  induction rest generalizing start with
  | nil => simp [Opened, directoriesAbove]
  | cons name rest ih =>
      cases rest with
      | nil => simp [Opened, directoriesAbove]
      | cons next rest =>
          rw [Opened, enters_iff, ih, directoriesAbove_cons, List.dropLast_cons_cons]
          simp only [List.forall_mem_cons, List.forall_mem_map, List.append_assoc,
            List.singleton_append]
          constructor
          · rintro ⟨⟨named, barred, imagined⟩, deeper, below, lower⟩
            exact ⟨⟨named, deeper⟩, ⟨barred, below⟩, imagined, lower⟩
          · rintro ⟨⟨named, deeper⟩, ⟨barred, below⟩, imagined, lower⟩
            exact ⟨⟨named, barred, imagined⟩, deeper, below, lower⟩

/-- A file that is a source by itself, and below no directory that is left out by its name or by
patterns for it. -/
@[mk_iff]
structure Wanted (filter : PathFilter) (maxFileSize : Nat) (place : Place) (bytes : ByteArray)
    (language : Language) :
    Prop where
  small : bytes.size ≤ maxFileSize
  text : isBinary bytes = false
  included : filter.included (relativePath place) = true
  kept : filter.excluded (relativePath place) = false
  language : Language.ofPath? (relativePath place) = some language
  named : ∀ name ∈ place.dropLast, name ∉ skippedDirectories
  entered : ∀ directory ∈ directoriesAbove place,
    filter.excluded (relativePath directory ++ "/") = false

theorem source?_eq_some_iff {found : Found} {path : String} {language : Language} :
    source? filter maxFileSize found = some (path, language) ↔
      found.path = path ∧ found.bytes.size ≤ maxFileSize ∧
      isBinary found.bytes = false ∧ filter.included path = true ∧ filter.excluded path = false ∧
      Language.ofPath? path = some language := by
  have asked : sourceLanguage? filter found.path = some language ↔
      filter.included found.path = true ∧
      filter.excluded found.path = false ∧ Language.ofPath? found.path = some language := by
    rw [sourceLanguage?]
    cases filter.included found.path <;> cases filter.excluded found.path <;> simp
  by_cases large : maxFileSize < found.bytes.size
  · simp [source?, warning?, large]
  · by_cases null : isBinary found.bytes = true
    · simp [source?, warning?, large, null]
    · have calm : warning? maxFileSize found = none := by simp [warning?, large, null]
      rw [source?, calm, Option.isSome_none, if_neg Bool.false_ne_true, Option.map_eq_some_iff]
      constructor
      · rintro ⟨_, known, same⟩
        cases same
        exact ⟨rfl, Nat.le_of_not_lt large, Bool.eq_false_iff.mpr null, asked.mp known⟩
      · rintro ⟨rfl, _, _, known⟩
        exact ⟨language, asked.mpr known, rfl⟩

/-- A scan finds the wanted files, unless patterns exclude the underscore in one of their
directories. -/
theorem mem_sourceFiles_iff {tree : FileTree} {path : String} {language : Language} :
    (path, language) ∈ (ofTree filter maxFileSize none tree).sourceFiles ↔
      ∃ place bytes, place ≠ [] ∧ tree.Holds place bytes ∧ relativePath place = path ∧
        Wanted filter maxFileSize place bytes language ∧
        ∀ directory ∈ directoriesAbove place,
          filter.excluded (relativePath directory ++ "/_") = false := by
  obtain ⟨_, _, whole, accounts⟩ := @ofTree_accounts filter maxFileSize none tree
  rw [(ScanResult.perm_sourceFiles _).mem_iff, accounts.sources, whole rfl, List.mem_filterMap]
  constructor
  · rintro ⟨found, listed, source⟩
    obtain ⟨place, inside, held, there, opened⟩ := holds_of_filesOf tree listed
    obtain ⟨rfl, small, text, included, kept, known⟩ := source?_eq_some_iff.mp source
    obtain ⟨named, entered, imagined⟩ := opened_iff.mp opened
    rw [there] at included kept known
    exact ⟨place, found.bytes, inside, held, there.symm,
      ⟨small, text, included, kept, known, named, entered⟩, imagined⟩
  · rintro ⟨place, bytes, inside, held, rfl, wanted, imagined⟩
    refine ⟨_, filesOf_of_holds held inside
      (opened_iff.mpr ⟨wanted.named, wanted.entered, imagined⟩), ?_⟩
    exact source?_eq_some_iff.mpr
      ⟨rfl, wanted.small, wanted.text, wanted.included, wanted.kept, wanted.language⟩

instance (place : Place) (bytes : ByteArray) (language : Language) :
    Decidable (Wanted filter maxFileSize place bytes language) :=
  decidable_of_iff _ (wanted_iff filter maxFileSize place bytes language).symm

/-- Files whose names start with an underscore are not asked for. -/
def publicOnly : AtlasConfig where
  excludePatterns := ["**/_*"]

def packageEntries : List (String × FileTree) :=
  [("pkg", .directory [("_private.py", .file .empty), ("main.py", .file .empty)])]

/-- No pattern excludes the main file, the package or what is directly in it, and still the file is
not found. -/
theorem sourceFiles_misses_wanted :
    ∃ filter scan, publicOnly.filter = .ok filter ∧
      scanRepository ⟨.directory packageEntries, []⟩ "/" (publicOnly.limitedTo none) = .ok scan ∧
      (FileTree.directory packageEntries).Holds ["pkg", "main.py"] .empty ∧
      Wanted filter publicOnly.maxFileSize ["pkg", "main.py"] .empty .python ∧
      ("pkg/main.py", .python) ∉ scan.sourceFiles := by
  obtain ⟨filter, compiled⟩ := AtlasConfig.exists_filter
    (show publicOnly.filter.isOk = true by decide +kernel)
  have wanted : publicOnly.filter.toOption.map (fun filter =>
      decide (Wanted filter publicOnly.maxFileSize ["pkg", "main.py"] .empty .python)) =
        some true := by decide +kernel
  rw [compiled] at wanted
  obtain ⟨scan, scanned⟩ : ∃ scan,
      scanRepository ⟨.directory packageEntries, []⟩ "/" (publicOnly.limitedTo none) = .ok scan :=
    ⟨_, AtlasConfig.scanRepository_limitedTo compiled none _ _⟩
  have files : scan.sourceFiles = [] := scan_top ScanResult.sourceFiles scanned (by decide +kernel)
  refine ⟨filter, scan, compiled, scanned, FileTree.holds_of_get? rfl,
    of_decide_eq_true (Option.some.inj wanted), ?_⟩
  rw [files]
  exact List.not_mem_nil

end Scan

end SourceAtlas
