/- The package that the relative imports of a file start from. A leading dot leaves one part of the
file's name. For a module that owns its name this part is its stem, so one dot means its package.
The file of a package has no part for its stem, and the full name of a file that lost its name has
one more for the extension, so there every dot is one part off. -/
import SourceAtlas.Linking.Python
import SourceAtlas.Proofs.Namespace
import SourceAtlas.Proofs.Segments

namespace SourceAtlas

namespace Path

theorem dropHere_dropHere (path : List Char) : dropHere (dropHere path) = dropHere path := by
  fun_induction dropHere path with
  | case1 rest ih => exact ih
  | case2 path other =>
      rw [dropHere]
      exact other

theorem not_mem_dropHere {mark : Char} {path : List Char} (plain : mark ∉ path) :
    mark ∉ dropHere path := by
  fun_induction dropHere path with
  | case1 rest ih => exact ih fun member => plain (by simp [member])
  | case2 path other => exact plain

@[simp] theorem normalize_normalize (path : String) :
    normalize (normalize path) = normalize path := by
  have forward : '\\' ∉ (Text.replaceChar '\\' '/' path).toList := by
    simp only [Text.replaceChar, String.toList_ofList, List.mem_map, not_exists, not_and]
    intro c _
    split
    · decide
    · assumption
  have same : Text.replaceChar '\\' '/' (normalize path) = normalize path := by
    apply Text.replaceChar_of_not_mem
    rw [normalize, String.toList_ofList]
    exact not_mem_dropHere forward
  rw [normalize, same, normalize, String.toList_ofList, dropHere_dropHere]

end Path

namespace Namespace

/-- The place of a file: directories from the top and a stem, each of them fit to be a part of a
dotted name, and an extension. -/
structure Located (path : String) (directories : List String) (stem extension : String) : Prop where
  spelled : Path.normalize path = Text.join "/" (directories ++ [stem ++ "." ++ extension])
  named : ∀ name ∈ directories ++ [stem], name ≠ "" ∧ '.' ∉ name.toList ∧ '/' ∉ name.toList
  plain : '.' ∉ extension.toList ∧ '/' ∉ extension.toList

/-- The parts of the name that a file gets among others. -/
def nameParts (paths : List String) (path : String) (directories : List String)
    (stem extension : String) :
    List String :=
  if Owns paths path then if stem = "__init__" then directories else directories ++ [stem]
  else directories ++ [stem, extension]

section

variable {paths : List String} {path stem extension : String} {directories : List String}

theorem Located.cut (located : Located path directories stem extension) :
    (Path.normalize path).toList = (Text.join "/" (directories ++ [stem])).toList ++ '.' ::
      extension.toList := by
  rw [located.spelled]
  by_cases top : directories = []
  · simp [top]
  · rw [Text.join_append "/" top (by simp), Text.join_append "/" top (by simp)]
    simp

theorem Located.stemOf {language : Language} (located : Located path directories stem extension)
    (known : Language.ofPath? (Path.normalize path) = some language) :
    stemOf (Path.normalize path) = Text.join "/" (directories ++ [stem]) := by
  rw [Namespace.stemOf, known, Text.cutLast?_of_cut located.plain.1 located.cut]

theorem Located.fullName (located : Located path directories stem extension) :
    fullName path = Text.join "." (directories ++ [stem, extension]) := by
  have plain : ∀ part ∈ directories ++ [stem ++ "." ++ extension], '/' ∉ part.toList := by
    intro part member
    rcases List.mem_append.mp member with inside | last
    · exact (located.named part (List.mem_append_left _ inside)).2.2
    · rw [List.mem_singleton.mp last]
      simp [(located.named stem (by simp)).2.2, located.plain.2]
  have ending : stem ++ "." ++ extension = Text.join "." [stem, extension] := by
    rw [Text.join_cons "." stem (by simp), Text.join_singleton]
  rw [Namespace.fullName, located.spelled,
    Text.replaceChar_join Text.toList_slash Text.toList_dot plain, ending,
    Text.join_append_join "." directories (by simp)]

/-- The stem of a package's own file is left out of its dotted name. -/
theorem dropIndex_join (nested : directories ≠ []) (plain : '.' ∉ stem.toList) :
    dropIndex "__init__" (Text.join "." (directories ++ [stem])) =
      Text.join "." (if stem = "__init__" then directories else directories ++ [stem]) := by
  have cut : Text.join "." (directories ++ [stem]) = Text.join "." directories ++ "." ++ stem := by
    rw [Text.join_append "." nested (by simp), Text.join_singleton]
  have dotted : Text.join "." (directories ++ [stem]) ≠ "__init__" := by
    intro same
    have member : '.' ∈ "__init__".toList := by
      rw [← same, cut]
      simp
    revert member
    decide
  rw [dropIndex, if_neg dotted]
  split
  · next index =>
      subst index
      rw [Text.dropEnd?_eq_some_iff.mpr (by rw [cut, String.append_assoc]), Option.getD_some]
  · next other =>
      -- Neither stem has a dot, so what follows the last dot of both names would be the same.
      cases dropped : Text.dropEnd? ("." ++ "__init__") (Text.join "." (directories ++ [stem])) with
      | none => rfl
      | some rest =>
          have same := congrArg String.toList
            (cut.symm.trans (Text.dropEnd?_eq_some_iff.mp dropped))
          simp only [String.toList_append, List.append_assoc, Text.toList_dot,
            List.singleton_append] at same
          have clear : '.' ∉ "__init__".toList := by decide
          have stems := (Text.eq_of_cut_last plain clear same).2.2
          exact absurd (String.toList_inj.mp stems) other

theorem Located.module (located : Located path directories stem extension)
    (python : (Claim.ofPath path).family = some .python) (nested : directories ≠ []) :
    (Claim.ofPath path).module =
      Text.join "." (if stem = "__init__" then directories else directories ++ [stem]) := by
  simp only [Claim.ofPath] at python
  obtain ⟨language, known, family⟩ := Option.map_eq_some_iff.mp python
  have slashes : ∀ part ∈ directories ++ [stem], '/' ∉ part.toList :=
    fun part member => (located.named part member).2.2
  have kept : ∀ part ∈ (if stem = "__init__" then directories else directories ++ [stem]),
      part ≠ "" ∧ ∀ c ∈ part.toList, decide (c = '.') = false := by
    intro part member
    have inside : part ∈ directories ++ [stem] := by
      split at member
      · exact List.mem_append_left _ member
      · exact member
    obtain ⟨named, dots, -⟩ := located.named part inside
    exact ⟨named, fun c there => decide_eq_false (ne_of_mem_of_not_mem there dots)⟩
  rw [Claim.module, moduleOf]
  simp only [Claim.ofPath, Path.normalize_normalize, located.stemOf known, known, Option.bind_some,
    family, indexStem]
  rw [Text.replaceChar_join Text.toList_slash Text.toList_dot slashes,
    dropIndex_join nested (located.named stem (by simp)).2.1, Text.trimWhere_join "." kept]

theorem Located.nameParts_plain (located : Located path directories stem extension)
    (paths : List String) :
    ∀ part ∈ nameParts paths path directories stem extension, '.' ∉ part.toList := by
  intro part member
  have inside : part ∈ directories ++ [stem, extension] := by
    rw [nameParts] at member
    split at member
    · split at member
      · exact List.mem_append_left _ member
      · exact List.mem_append.mpr ((List.mem_append.mp member).imp_right fun last => by simp_all)
    · exact member
  rcases List.mem_append.mp inside with directory | last
  · exact (located.named part (List.mem_append_left _ directory)).2.1
  · rcases List.mem_pair.mp last with rfl | rfl
    · exact (located.named part (by simp)).2.1
    · exact located.plain.1

theorem Located.nameParts_text (located : Located path directories stem extension)
    (nested : directories ≠ []) (paths : List String) :
    Text.join "." (nameParts paths path directories stem extension) ≠ "" := by
  obtain ⟨first, rest, rfl⟩ := List.exists_cons_of_ne_nil nested
  have named : first ≠ "" := (located.named first (by simp)).1
  rw [nameParts]
  split
  · split
    · exact Text.join_ne_empty "." named _
    · exact Text.join_ne_empty "." named _
  · exact Text.join_ne_empty "." named _

theorem Located.nameAmong (located : Located path directories stem extension)
    (python : (Claim.ofPath path).family = some .python) (nested : directories ≠ []) :
    nameAmong paths path = Text.join "." (nameParts paths path directories stem extension) := by
  rw [Namespace.nameAmong, nameParts]
  split
  · exact located.module python nested
  · exact located.fullName

end

end Namespace

namespace Python

open Namespace

/-- Some parts without the last few of them, followed by a module if there is one. -/
def climb (parts : List String) (level : Nat) (module : Option String) : String :=
  Text.join "." (parts.take (parts.length - level) ++ module.toList)

section

variable {parts : List String} {level : Nat}

@[simp] theorem climb_concat (parts : List String) (last : String) (level : Nat)
    (module : Option String) :
    climb (parts ++ [last]) (level + 1) module = climb parts level module := by
  have fewer : (parts ++ [last]).length - (level + 1) = parts.length - level := by simp
  rw [climb, fewer, List.take_append_of_le_length (Nat.sub_le ..), climb]

/-- One step more leads elsewhere as long as there are parts to leave. -/
theorem climb_succ_ne (named : "" ∉ parts) (more : level < parts.length) (module : Option String) :
    climb parts (level + 1) module ≠ climb parts level module := by
  have next : parts.length - level = parts.length - (level + 1) + 1 := by omega
  have inside : parts.length - (level + 1) < parts.length := by omega
  rw [climb, climb, next, List.take_succ_eq_append_getElem inside, List.append_assoc]
  exact (Text.join_insert_ne (by decide) (fun empty => named (empty ▸ List.getElem_mem inside)) _
    _).symm

/-- A relative import leaves one part of the importer's name for every dot. -/
theorem importedModule_join (text : Text.join "." parts ≠ "")
    (plain : ∀ part ∈ parts, '.' ∉ part.toList) (leaves : level ≠ 0) (module : Option String) :
    importedModule (Text.join "." parts) module level = climb parts level module := by
  have filled : parts ≠ [] := by
    rintro rfl
    exact text (Text.join_nil ".")
  rw [importedModule, if_neg (not_or.mpr ⟨leaves, text⟩)]
  cases module with
  | none =>
      rw [Text.split_join Text.toList_dot plain filled, climb]
      rfl
  | some dotted =>
      have whole : Text.split '.' dotted ≠ [] := by simp [Text.split, List.splitOn]
      rw [Text.split_join Text.toList_dot plain filled, climb, Option.map_some, Option.getD_some,
        ← Text.join_append_join "." _ whole, Text.join_split Text.toList_dot]
      rfl

end

/-- What a relative import of a file in a directory names, among any others: one part of the file's
name is left for every dot. This is the file's directory without its last `level - 1` segments,
followed by the module, if and only if the file owns its name and is not the file of a package. -/
theorem importedModule_package_iff {paths directories : List String} {path stem extension : String}
    {level : Nat} (listed : path ∈ paths) (python : (Claim.ofPath path).family = some .python)
    (located : Located path directories stem extension) (leaves : 1 ≤ level)
    (within : level ≤ directories.length) (module : Option String) :
    ∃ name, (ofPaths paths)[path]? = some name ∧
      importedModule name module level =
        climb (nameParts paths path directories stem extension) level module ∧
      (importedModule name module level = climb directories (level - 1) module ↔
        Owns paths path ∧ stem ≠ "__init__") := by
  obtain ⟨steps, rfl⟩ : ∃ steps, level = steps + 1 := ⟨level - 1, by omega⟩
  have nested : directories ≠ [] := by
    rintro rfl
    simp at within
  have named : "" ∉ directories ++ [stem] := fun empty => (located.named "" empty).1 rfl
  refine ⟨_, by rw [get?_ofPaths, if_pos listed], ?_⟩
  rw [located.nameAmong python nested, Nat.add_sub_cancel,
    importedModule_join (located.nameParts_text nested paths) (located.nameParts_plain paths)
    (by omega)]
  refine ⟨rfl, ?_⟩
  rw [nameParts]
  split
  · next owns =>
      split
      · next index =>
          have filled : "" ∉ directories := fun empty => named (List.mem_append_left _ empty)
          simpa [index] using climb_succ_ne filled within module
      · next other => simp [owns, other]
  · next lost =>
      -- The first dot leaves the extension, and the stem is still there when the directory is asked
      -- for.
      have longer : directories ++ [stem, extension] = directories ++ [stem] ++ [extension] := by
        simp
      rw [longer, climb_concat, ← climb_concat directories stem]
      have more : steps < (directories ++ [stem]).length := by
        simp only [List.length_append, List.length_singleton]
        omega
      simpa [lost] using (climb_succ_ne named more module).symm

theorem importedModule_package_iff_nested :
    Located "pkg/sub/views.py" ["pkg", "sub"] "views" "py" ∧
    ∃ name, (ofPaths ["pkg/__init__.py", "pkg/sub/views.py"])["pkg/sub/views.py"]? = some name ∧
      importedModule name (some "core.models") 2 =
        climb (nameParts ["pkg/__init__.py", "pkg/sub/views.py"] "pkg/sub/views.py" ["pkg", "sub"]
          "views" "py") 2
          (some "core.models") ∧
      (importedModule name (some "core.models") 2 = climb ["pkg", "sub"] 1 (some "core.models") ↔
        Owns ["pkg/__init__.py", "pkg/sub/views.py"] "pkg/sub/views.py" ∧
          "views" ≠ "__init__") := by
  have located : Located "pkg/sub/views.py" ["pkg", "sub"] "views" "py" :=
    ⟨by decide, by decide, by decide⟩
  exact ⟨located, importedModule_package_iff (by decide) (by decide +kernel) located (by decide)
    (by decide) _⟩

/-- The file of a package seeks its own modules next to the package. -/
theorem importedModule_package_file :
    Located "pkg/__init__.py" ["pkg"] "__init__" "py" ∧
      (ofPaths ["pkg/__init__.py", "pkg/models.py"])["pkg/__init__.py"]? = some "pkg" ∧
      importedModule "pkg" (some "models") 1 = "models" ∧
        climb ["pkg"] 0 (some "models") = "pkg.models" := by
  refine ⟨⟨by decide, by decide, by decide⟩, ?_, by decide, by decide⟩
  rw [get?_ofPaths]
  decide +kernel

end Python

end SourceAtlas
