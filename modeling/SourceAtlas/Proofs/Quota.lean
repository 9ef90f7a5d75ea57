/- Scans that stop after a number of sources. Every scan is an account of the files that it looked
at; these are the first ones of the whole walk, and their sources are the first sources of it. -/
import Mathlib.Algebra.BigOperators.Group.List.Lemmas
import Mathlib.Algebra.GroupWithZero.Nat
import SourceAtlas.Proofs.Session

namespace SourceAtlas

/-- Every item is counted under one key. -/
theorem TextMap.sum_values_tally (items : List String) :
    (tally items).values.sum = items.length := by
  have counts : (tally items).values = ((tally items).toList.map Prod.fst).map fun key =>
      items.count key := by
    rw [values_eq_map_toList, List.map_map]
    refine List.map_congr_left fun entry member => ?_
    have stored := Std.ExtTreeMap.mem_toList_iff_getElem?_eq_some.mp member
    rw [get?_tally] at stored
    split at stored
    · exact (Option.some.inj stored).symm
    · cases stored
  have keys : ((tally items).toList.map Prod.fst).Perm items.dedup := by
    refine (List.perm_ext_iff_of_nodup (nodup_keys_toList _) items.nodup_dedup).mpr fun key => ?_
    rw [Std.ExtTreeMap.map_fst_toList_eq_keys, Std.ExtTreeMap.mem_keys, List.mem_dedup,
      Std.ExtTreeMap.mem_iff_isSome_getElem?, get?_tally]
    split <;> simp [*]
  rw [counts, (keys.map _).sum_eq, List.sum_map_count_dedup_eq_length]

/-- The files of a scan add up, and each skipped one has its own warning. -/
structure ScanResult.Balanced (scan : ScanResult) : Prop where
  files : scan.totalFiles = scan.skipped.length + scan.extensionCounts.values.sum
  warnings : List.Forall₂ (fun path warning => warning.path = path ∧
    (warning.code = "file_too_large" ∨ warning.code = "binary_file")) scan.skipped scan.warnings

/-- Taken language by language, the source files are the same. -/
theorem ScanResult.perm_sourceFiles (scan : ScanResult) : scan.sourceFiles.Perm scan.sources := by
  have own (language : Language) : (scan.filesIn language).map (fun path => (path, language)) =
      scan.sources.filter fun source => source.2 = language := by
    rw [filesIn, List.map_map]
    refine (List.map_congr_left fun source member => ?_).trans (List.map_id _)
    rw [List.mem_filter, decide_eq_true_eq] at member
    exact Prod.ext rfl member.2.symm
  simp only [sourceFiles, own]
  refine perm_flatMap_filter (by decide) Prod.snd fun source _ => ?_
  cases source.2 <;> decide

namespace Scan

section Accounts

variable (filter : PathFilter) (maxFileSize : Nat)

/-- Why a file is skipped, if it is. -/
def warning? (found : Found) : Option Warning :=
  if maxFileSize < found.bytes.size then some (tooLarge maxFileSize found.path)
  else if isBinary found.bytes then some (binary found.path)
  else none

/-- A file as a source, if it is one. -/
def source? (found : Found) : Option (String × Language) :=
  if (warning? maxFileSize found).isSome then none
  else (sourceLanguage? filter found.path).map fun language => (found.path, language)

/-- What a scan says about the files that it looked at, one by one. -/
structure Accounts (visited : List Found) (scan : ScanResult) : Prop where
  sources : scan.sources = visited.filterMap (source? filter maxFileSize)
  skipped : scan.skipped = (visited.filter fun found => (warning? maxFileSize found).isSome).map
    Found.path
  warnings : scan.warnings = visited.filterMap (warning? maxFileSize)
  extensions : scan.extensionCounts =
    TextMap.tally ((visited.filter fun found => (warning? maxFileSize found).isNone).map
      fun found =>
      extensionKey found.path)
  files : scan.totalFiles = visited.length
  bytes : scan.totalBytes = (visited.map fun found => found.bytes.size).sum

end Accounts

variable {filter : PathFilter} {maxFileSize : Nat}

theorem sources_add (result : ScanResult) (found : Found) :
    (add filter maxFileSize result found).sources =
      result.sources ++ (source? filter maxFileSize found).toList := by
  by_cases large : maxFileSize < found.bytes.size
  · simp [add, skip, source?, warning?, large]
  · by_cases null : isBinary found.bytes = true
    · simp [add, skip, source?, warning?, large, null]
    · cases language : sourceLanguage? filter found.path <;>
        simp [add, source?, warning?, large, null, language]

theorem Accounts.add {visited : List Found} {scan : ScanResult}
    (accounts : Accounts filter maxFileSize visited scan) (found : Found) :
    Accounts filter maxFileSize (visited ++ [found]) (add filter maxFileSize scan found) := by
  have sources : (Scan.add filter maxFileSize scan found).sources =
      (visited ++ [found]).filterMap (source? filter maxFileSize) := by
    rw [sources_add, accounts.sources, List.filterMap_append]
    cases source : source? filter maxFileSize found <;> simp [source]
  by_cases large : maxFileSize < found.bytes.size
  · have warned : warning? maxFileSize found = some (tooLarge maxFileSize found.path) :=
      if_pos large
    constructor
    · exact sources
    all_goals simp [Scan.add, skip, large, warned, accounts.skipped, accounts.warnings,
      accounts.extensions, accounts.files, accounts.bytes]
  · by_cases null : isBinary found.bytes = true
    · have warned : warning? maxFileSize found = some (binary found.path) := by
        simp [warning?, large, null]
      constructor
      · exact sources
      all_goals simp [Scan.add, skip, large, null, warned, accounts.skipped, accounts.warnings,
        accounts.extensions, accounts.files, accounts.bytes]
    · have calm : warning? maxFileSize found = none := by simp [warning?, large, null]
      constructor
      · exact sources
      all_goals simp [Scan.add, large, null, calm, accounts.skipped, accounts.warnings,
        accounts.extensions, accounts.files, accounts.bytes, TextMap.tally]

/-- A scan looks at the first files that it is given, at all of them without a limit. -/
theorem Accounts.collect {visited : List Found} {scan : ScanResult}
    (accounts : Accounts filter maxFileSize visited scan) (limit : Option Nat)
    (files : List Found) :
    ∃ more, more <+: files ∧ (limit = none → more = files) ∧
      Accounts filter maxFileSize (visited ++ more)
        (collect filter maxFileSize limit scan files) := by
  induction files generalizing visited scan with
  | nil => exact ⟨[], List.nil_prefix, fun _ => rfl, by rwa [List.append_nil]⟩
  | cons found rest ih =>
      rw [Scan.collect]
      split
      · next full =>
          refine ⟨[], List.nil_prefix, ?_, by rwa [List.append_nil]⟩
          rintro rfl
          cases full
      · obtain ⟨more, first, whole, later⟩ := ih (accounts.add found)
        refine ⟨found :: more, List.cons_prefix_cons.mpr ⟨rfl, first⟩, ?_, ?_⟩
        · intro unlimited
          rw [whole unlimited]
        · rwa [List.append_assoc, List.singleton_append] at later

theorem warning?_eq_some {found : Found} {warning : Warning}
    (warned : warning? maxFileSize found = some warning) :
    warning.path = found.path ∧ (warning.code = "file_too_large" ∨
      warning.code = "binary_file") := by
  rw [warning?] at warned
  split at warned
  · cases warned
    exact ⟨rfl, .inl rfl⟩
  · split at warned
    · cases warned
      exact ⟨rfl, .inr rfl⟩
    · cases warned

theorem Accounts.balanced {visited : List Found} {scan : ScanResult}
    (accounts : Accounts filter maxFileSize visited scan) :
    scan.Balanced := by
  constructor
  · rw [accounts.files, accounts.skipped, accounts.extensions, TextMap.sum_values_tally,
      List.length_map, List.length_map, ← List.countP_eq_length_filter,
      ← List.countP_eq_length_filter,
        List.length_eq_countP_add_countP fun found => (warning? maxFileSize found).isSome]
    refine congrArg _ (List.countP_congr fun found _ => ?_)
    simp
  · rw [accounts.skipped, accounts.warnings]
    clear accounts
    induction visited with
    | nil => exact .nil
    | cons found rest ih =>
        cases warned : warning? maxFileSize found with
        | none => simpa [warned] using ih
        | some warning =>
            simp only [List.filter_cons, List.filterMap_cons, warned, Option.isSome_some, if_true,
              List.map_cons]
            exact .cons (warning?_eq_some warned) ih

theorem sources_collect {limit : Nat} {result : ScanResult} (room : result.sources.length ≤ limit)
    (files : List Found) :
    (collect filter maxFileSize (some limit) result files).sources =
      (result.sources ++ files.filterMap (source? filter maxFileSize)).take limit := by
  induction files generalizing result with
  | nil => rw [collect, List.filterMap_nil, List.append_nil, List.take_of_length_le room]
  | cons found rest ih =>
      rw [collect]
      split
      · next full =>
          have enough : limit ≤ result.sources.length := by simpa [isFull] using full
          rw [List.take_append_of_le_length enough, List.take_of_length_le room]
      · next short =>
          have space : result.sources.length < limit := by simpa [isFull] using short
          have still : (add filter maxFileSize result found).sources.length ≤ limit := by
            rw [sources_add, List.length_append]
            have := Option.length_toList_le (o := source? filter maxFileSize found)
            omega
          rw [ih still, sources_add, List.append_assoc]
          cases source : source? filter maxFileSize found <;> simp [source]

/-- The scan of a tree without a limit is an account of its files, and one with a limit of the first
of them. -/
theorem ofTree_accounts (limit : Option Nat) (tree : FileTree) :
    ∃ visited, visited <+: filesOf filter [] tree ∧
      (limit = none → visited = filesOf filter [] tree) ∧
      Accounts filter maxFileSize visited (ofTree filter maxFileSize limit tree) := by
  have start : Accounts filter maxFileSize [] {} := ⟨rfl, rfl, rfl, rfl, rfl, rfl⟩
  exact start.collect limit (filesOf filter [] tree)

theorem sources_ofTree (limit : Nat) (tree : FileTree) :
    (ofTree filter maxFileSize (some limit) tree).sources =
      (ofTree filter maxFileSize none tree).sources.take limit := by
  obtain ⟨visited, _, whole, accounts⟩ := @ofTree_accounts filter maxFileSize none tree
  rw [accounts.sources, whole rfl]
  exact sources_collect (Nat.zero_le limit) _

end Scan

/-- A configuration with another number of source files to stop at. -/
def AtlasConfig.limitedTo (config : AtlasConfig) (limit : Option Nat) : AtlasConfig :=
  { config with maxFiles := limit }

theorem AtlasConfig.scanRepository_limitedTo {config : AtlasConfig} {filter : PathFilter}
    (compiled : config.filter = .ok filter) (limit : Option Nat) (disk : Disk) (root : String) :
    scanRepository disk root (config.limitedTo limit) =
      .ok (Scan.ofTree filter config.maxFileSize limit
      ((disk.find? root).getD (.directory []))) :=
  IndexCall.scanRepository_of_filter root disk compiled

/-- Scans of one directory with and without a limit. Each accounts for the files that it looked at,
all of them or the first ones; a limited scan has as many sources as it may, and they are the first
in every language. -/
theorem scanRepository_limited {config : AtlasConfig} {filter : PathFilter}
    (compiled : config.filter = .ok filter) (disk : Disk) (root : String) :
    ∃ full, scanRepository disk root (config.limitedTo none) = .ok full ∧
      Scan.Accounts filter config.maxFileSize
        (Scan.filesOf filter [] ((disk.find? root).getD (.directory []))) full ∧ full.Balanced ∧
      ∀ limit, ∃ visited limited,
        scanRepository disk root (config.limitedTo (some limit)) = .ok limited ∧
        visited <+: Scan.filesOf filter [] ((disk.find? root).getD (.directory [])) ∧
        Scan.Accounts filter config.maxFileSize visited limited ∧ limited.Balanced ∧
        limited.sourceFiles.length = min limit full.sourceFiles.length ∧
        ∀ language, limited.filesIn language <+: full.filesIn language := by
  obtain ⟨files, _, whole, accounts⟩ :=
    @Scan.ofTree_accounts filter config.maxFileSize none ((disk.find? root).getD (.directory []))
  obtain rfl := whole rfl
  refine ⟨_, AtlasConfig.scanRepository_limitedTo compiled none disk root, accounts,
    accounts.balanced, ?_⟩
  intro limit
  obtain ⟨visited, first, _, limitedAccounts⟩ :=
    @Scan.ofTree_accounts filter config.maxFileSize (some limit)
      ((disk.find? root).getD (.directory []))
  have cut := @Scan.sources_ofTree filter config.maxFileSize limit
    ((disk.find? root).getD (.directory []))
  refine ⟨visited, _, AtlasConfig.scanRepository_limitedTo compiled (some limit) disk root, first,
    limitedAccounts, limitedAccounts.balanced, ?_, ?_⟩
  · rw [(ScanResult.perm_sourceFiles _).length_eq, (ScanResult.perm_sourceFiles _).length_eq, cut,
      List.length_take]
  · intro language
    rw [ScanResult.filesIn, ScanResult.filesIn, cut]
    exact ((List.take_prefix limit _).filter _).map _

/-- Three sources, two of them in a directory, and a binary file that is looked at before them. -/
def nestedSources : List (String × FileTree) :=
  [("a.py", .file .empty), ("lib", .directory [("b.py", .file .empty), ("c.py", .file .empty)]),
    ("z.py", .file ⟨#[0]⟩)]

theorem scanRepository_limited_nested :
    ∃ full limited, scanRepository ⟨.directory nestedSources, []⟩ "/"
      (AtlasConfig.limitedTo {} none) = .ok full ∧
      scanRepository ⟨.directory nestedSources, []⟩ "/" (AtlasConfig.limitedTo {} (some 2)) =
        .ok limited ∧
      full.filesIn .python = ["a.py", "lib/b.py", "lib/c.py"] ∧ full.Balanced ∧
      limited.sourceFiles.length = 2 ∧
        limited.filesIn .python <+: ["a.py", "lib/b.py", "lib/c.py"] := by
  obtain ⟨filter, compiled⟩ := AtlasConfig.exists_filter
    (show (AtlasConfig.filter {}).isOk = true by decide +kernel)
  obtain ⟨full, scanned, _, balanced, limits⟩ :=
    scanRepository_limited compiled ⟨.directory nestedSources, []⟩ "/"
  obtain ⟨_, limited, limitedScan, _, _, _, count, first⟩ := limits 2
  have shown : (full.filesIn .python, full.sourceFiles.length) =
      (["a.py", "lib/b.py", "lib/c.py"], 3) :=
    scan_top (fun scan => (scan.filesIn .python, scan.sourceFiles.length)) scanned
      (by decide +kernel)
  obtain ⟨files, three⟩ := Prod.mk.inj shown
  rw [three] at count
  exact ⟨full, limited, scanned, limitedScan, files, balanced, count, files ▸ first .python⟩

end SourceAtlas
