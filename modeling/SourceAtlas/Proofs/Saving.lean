/- Saving an index. It fails only where no index can be loaded, before or after; and where it
succeeds, it adds the directory for it if that is missing and changes one file. -/
import SourceAtlas.Proofs.Scan
import SourceAtlas.Proofs.Store

namespace SourceAtlas

open FileTree (Grows Writable insertEntry lookup_insertEntry)

namespace Disk

theorem read_eq_ok_iff {disk : Disk} {path : String} {bytes : ByteArray} :
    disk.read path = .ok bytes ↔
      ∃ place, disk.locate path = .ok place ∧ disk.tree.get? place = some (.file bytes) := by
  rw [read]
  cases found : disk.locate path with
  | error fault => simp [bind, Except.bind]
  | ok place =>
      simp only [bind, Except.bind, Except.ok.injEq, exists_eq_left']
      split
      · next there => simp [there]
      · next there => simp [there]
      · next other _ => simpa using other bytes

theorem write_eq_ok_iff {disk after : Disk} {path : String} {bytes : ByteArray} :
    disk.write path bytes = .ok after ↔ ∃ target, disk.follow true path = .ok target ∧
      Writable disk.tree target ∧
        after = { disk with tree := disk.tree.put target (.file bytes) } := by
  rw [write]
  cases followed : disk.follow true path with
  | error fault => simp [bind, Except.bind]
  | ok target =>
      simp only [bind, Except.bind, Except.ok.injEq, exists_eq_left']
      split
      · next directory =>
          obtain ⟨entries, there⟩ := any_isDirectory_iff.mp directory
          constructor
          · intro failed
            cases failed
          · rintro ⟨writable, _⟩
            rcases writable.get?_eq with missing | ⟨old, file⟩
            · cases missing.symm.trans there
            · cases file.symm.trans there
      · next solid =>
          have writable := writable_of_follow followed (Bool.eq_false_iff.mpr solid)
          constructor
          · intro same
            exact ⟨writable, (Except.ok.inj same).symm⟩
          · rintro ⟨_, rfl⟩
            rfl

theorem write_of_follow {disk : Disk} {path : String} {target : Place}
    (followed : disk.follow true path = .ok target) (writable : Writable disk.tree target)
    (bytes : ByteArray) :
    disk.write path bytes = .ok { disk with tree := disk.tree.put target (.file bytes) } :=
  write_eq_ok_iff.mpr ⟨target, followed, writable, rfl⟩

/-- A file that can be read can be written. -/
theorem write_of_read {disk : Disk} {path : String} {old : ByteArray}
    (read : disk.read path = .ok old) (bytes : ByteArray) :
    ∃ after, disk.write path bytes = .ok after := by
  obtain ⟨place, found, file⟩ := read_eq_ok_iff.mp read
  obtain ⟨usable, given, walked⟩ := follow_eq_ok_iff.mp found
  have followed : disk.follow true path = .ok place :=
    follow_eq_ok_iff.mpr ⟨usable, given,
      walk_of_grows (.refl _) walked (by simp) (Nat.le_refl _) true⟩
  exact ⟨_, write_of_follow followed (FileTree.writable_of_file file) bytes⟩

theorem find?_eq_some_iff {disk : Disk} {path : String} {tree : FileTree} :
    disk.find? path = some tree ↔ ∃ place,
      disk.locate path = .ok place ∧ disk.tree.get? place = some tree := by
  rw [find?]
  cases disk.locate path with
  | error fault => simp
  | ok place => simp

theorem locate_of_grows {disk after : Disk} {path : String} {place : Place}
    (base : after.base = disk.base) (grows : Grows disk.tree after.tree)
    (found : disk.locate path = .ok place) :
    after.locate path = .ok place := by
  obtain ⟨usable, given, walked⟩ := follow_eq_ok_iff.mp found
  refine follow_eq_ok_iff.mpr ⟨usable, given, ?_⟩
  have origin : after.origin path = disk.origin path := by rw [origin, origin, base]
  rw [origin]
  exact walk_of_grows grows walked (by simp) (Nat.le_refl _) false

/-- An absolute path on a disk that starts at its top. -/
theorem follow_top_iff {entries : List (String × FileTree)} {creating : Bool} {path : String}
    {steps : List String} {place : Place} (usable : unusable? path = none)
    (absolute : isAbsolute path = true) (pieces : Path.pieces path = "" :: steps) :
    (⟨.directory entries, []⟩ : Disk).follow creating path = .ok place ↔
      walk (.directory entries) creating linkLimit [] steps = .ok place := by
  have given : path ≠ "" := by
    rintro rfl
    cases absolute
  have origin : (⟨.directory entries, []⟩ : Disk).origin path = [] := if_pos absolute
  rw [follow_eq_ok_iff, origin, pieces, walk_blank rfl (.inl rfl)]
  simp [usable, given]

end Disk

namespace Store

variable {disk after : Disk} {root : String} {index : RepoIndex}

theorem getLast?_statePath (root : String) : (statePath root).toList.getLast? = some 'r' := by
  obtain ⟨start, shape⟩ : ∃ start, statePath root = start ++ Scan.stateDirectory := by
    rw [statePath, Disk.below]
    split
    · exact ⟨"", by simp⟩
    · split
      · exact ⟨root, rfl⟩
      · exact ⟨root ++ "/", rfl⟩
  rw [shape, String.toList_append, List.getLast?_append]
  rfl

theorem statePath_ne_empty (root : String) : statePath root ≠ "" := by
  intro empty
  have last := getLast?_statePath root
  rw [empty] at last
  cases last

theorem indexPath_eq (root : String) : indexPath root = statePath root ++ "/" ++ "index.json" := by
  have relative : Disk.isAbsolute "index.json" = false := rfl
  rw [indexPath, Disk.below, relative, Bool.false_or, decide_eq_false (statePath_ne_empty root),
    if_neg (by simp), getLast?_statePath, if_neg (by simp)]

@[simp] theorem pieces_indexPath (root : String) :
    Path.pieces (indexPath root) = Path.pieces (statePath root) ++ ["index.json"] := by
  have name : Path.pieces "index.json" = ["index.json"] := by decide +kernel
  rw [indexPath_eq, Path.pieces_append, name]

@[simp] theorem origin_indexPath (disk : Disk) (root : String) :
    disk.origin (indexPath root) = disk.origin (statePath root) := by
  rw [indexPath_eq, String.append_assoc, Disk.origin_append (statePath_ne_empty root)]

theorem usable_statePath (usable : Disk.unusable? (indexPath root) = none) :
    Disk.unusable? (statePath root) = none := by
  rw [indexPath_eq, String.append_assoc] at usable
  exact Disk.usable_of_append usable

theorem walk_of_read {bytes : ByteArray} (read : disk.read (indexPath root) = .ok bytes) :
    Disk.unusable? (statePath root) = none ∧ ∃ place, Disk.walk disk.tree false Disk.linkLimit
      (disk.origin (statePath root)) (Path.pieces (statePath root) ++ ["index.json"]) =
        .ok place := by
  obtain ⟨place, found, _⟩ := Disk.read_eq_ok_iff.mp read
  obtain ⟨usable, _, walked⟩ := Disk.follow_eq_ok_iff.mp found
  rw [origin_indexPath, pieces_indexPath] at walked
  exact ⟨usable_statePath usable, place, walked⟩

/-- Where the index can be read, its directory is there. -/
theorem enterAll_of_read {bytes : ByteArray} (read : disk.read (indexPath root) = .ok bytes) :
    Disk.enterAll disk.tree (disk.origin (statePath root)) (Path.pieces (statePath root)) =
      (disk.tree, .ok ()) := by
  obtain ⟨_, place, walked⟩ := walk_of_read read
  obtain ⟨home, left, _, first, second⟩ := Disk.walk_append walked (by simp)
  obtain ⟨entries, directory⟩ := Disk.directory_of_walk second
  have entered := Disk.enterAll_of_walk first (Nat.le_refl _) directory []
  rwa [List.append_nil] at entered

theorem makeDirectories_of_usable (usable : Disk.unusable? (statePath root) = none) :
    disk.makeDirectories (statePath root) =
      ({ disk with
          tree := (Disk.enterAll disk.tree (disk.origin (statePath root))
            (Path.pieces (statePath root))).1 },
        (Disk.enterAll disk.tree (disk.origin (statePath root))
          (Path.pieces (statePath root))).2) := by
  rw [Disk.makeDirectories, usable]

theorem saveIndex_of_read {bytes : ByteArray} (read : disk.read (indexPath root) = .ok bytes)
    (index : RepoIndex) :
    ∃ after, saveIndex disk root index = (after, .ok ()) := by
  obtain ⟨after, written⟩ := Disk.write_of_read read index.toText.toUTF8
  have made : disk.makeDirectories (statePath root) = (disk, .ok ()) := by
    rw [makeDirectories_of_usable (walk_of_read read).1, enterAll_of_read read]
  refine ⟨after, ?_⟩
  rw [saveIndex, writeText, made]
  simp only [written]

/-- After an attempt that failed, there is no index to read either. -/
theorem not_read_of_saveIndex_error {fault : AtlasError}
    (failed : saveIndex disk root index = (after, .error fault)) (bytes : ByteArray) :
    after.read (indexPath root) ≠ .ok bytes := by
  intro read
  rw [saveIndex, writeText] at failed
  split at failed
  · next made _ failing =>
      cases failed
      obtain ⟨usable, place, walked⟩ := walk_of_read read
      rw [makeDirectories_of_usable usable] at failing
      obtain ⟨rfl, outcome⟩ := Prod.mk.inj failing
      -- The directories could not be made, and they can be no better now.
      have again := Disk.enterAll_again rfl walked (Nat.le_refl _) (by simp)
      rw [outcome] at again
      cases again.symm.trans (enterAll_of_read read)
  · next made _ =>
      split at failed
      · cases failed
      · next refused =>
          cases failed
          obtain ⟨_, written⟩ := Disk.write_of_read read index.toText.toUTF8
          rw [written] at refused
          cases refused

theorem loadIndex?_eq_none (unread : ∀ bytes, disk.read (indexPath root) ≠ .ok bytes) :
    loadIndex? disk root = none := by
  delta loadIndex?
  cases read : disk.read (indexPath root) with
  | ok bytes => exact absurd read (unread bytes)
  | error fault => simp only [readText, read]

/-- An attempt that failed leaves the stored index as it was: there was none. -/
theorem loadIndex?_of_saveIndex_error {fault : AtlasError}
    (failed : saveIndex disk root index = (after, .error fault)) :
    loadIndex? after root = loadIndex? disk root := by
  rw [loadIndex?_eq_none (not_read_of_saveIndex_error failed), loadIndex?_eq_none]
  intro bytes read
  obtain ⟨saved, done⟩ := saveIndex_of_read read index
  cases failed.symm.trans done

/-- How a tree changes when an index is stored for the directory at a place. -/
inductive Saves (home : Place) (bytes : ByteArray) (tree : FileTree) : Place → FileTree → Prop
  | ready {target : Place} : Writable tree target →
      Saves home bytes tree target (tree.put target (.file bytes))
  | fresh {target : Place} : tree.get? (home ++ [Scan.stateDirectory]) = none →
      Writable (tree.put (home ++ [Scan.stateDirectory]) (.directory [])) target →
      Saves home bytes tree target
        ((tree.put (home ++ [Scan.stateDirectory]) (.directory [])).put target (.file bytes))

theorem enterAll_of_makeDirectories {made : Disk}
    (making : disk.makeDirectories (statePath root) = (made, .ok ())) :
    Disk.unusable? (statePath root) = none ∧ made.base = disk.base ∧
      Disk.enterAll disk.tree (disk.origin (statePath root)) (Path.pieces (statePath root)) =
        (made.tree, .ok ()) := by
  have usable : Disk.unusable? (statePath root) = none := by
    rw [Disk.makeDirectories] at making
    split at making
    · cases making
    · next usable => exact usable
  rw [makeDirectories_of_usable usable] at making
  obtain ⟨rfl, outcome⟩ := Prod.mk.inj making
  exact ⟨usable, rfl, Prod.ext rfl outcome⟩

theorem pieces_stateDirectory :
    Path.pieces Scan.stateDirectory = [Scan.stateDirectory] := by decide +kernel

/-- Below a directory that is there, at most the directory of the stored state is made. -/
theorem makeDirectories_cases {made : Disk} {home : Place}
    (making : disk.makeDirectories (statePath root) = (made, .ok ()))
    (found : disk.locate root = .ok home) {entries : List (String × FileTree)}
    (directory : disk.tree.get? home = some (.directory entries)) :
    made.base = disk.base ∧ (made.tree = disk.tree ∨
      disk.tree.get? (home ++ [Scan.stateDirectory]) = none ∧
        made.tree = disk.tree.put (home ++ [Scan.stateDirectory]) (.directory [])) := by
  obtain ⟨_, base, entered⟩ := enterAll_of_makeDirectories making
  obtain ⟨stem, pieces, walked⟩ :=
    Disk.steps_below found (rfl : Disk.isAbsolute Scan.stateDirectory = false)
  rw [statePath, pieces, pieces_stateDirectory,
    Disk.enterAll_of_walk walked (Nat.le_refl _) directory] at entered
  obtain ⟨next, place, enters, done⟩ := Disk.enters_of_enterAll entered
  have same : next = made.tree := congrArg Prod.fst done
  refine ⟨base, ?_⟩
  rw [← same]
  cases enters with
  | blank blank => exact absurd blank (by decide)
  | up up => exact absurd up (by decide)
  | made named missing => exact .inr ⟨missing, rfl⟩
  | inside named there => exact .inl rfl
  | link named there walked directory => exact .inl rfl

theorem exists_write_of_saveIndex (saved : saveIndex disk root index = (after, .ok ())) :
    ∃ made target, disk.makeDirectories (statePath root) = (made, .ok ()) ∧
      made.follow true (indexPath root) = .ok target ∧ Writable made.tree target ∧
      after = { made with tree := made.tree.put target (.file index.toText.toUTF8) } := by
  rw [saveIndex, writeText] at saved
  split at saved
  · cases saved
  next made making =>
  split at saved
  · next written =>
      cases saved
      obtain ⟨target, followed, writable, same⟩ := Disk.write_eq_ok_iff.mp written
      exact ⟨made, target, making, followed, writable, same⟩
  · cases saved

theorem saves_of_saveIndex {home : Place} (saved : saveIndex disk root index = (after, .ok ()))
    (found : disk.locate root = .ok home) {entries : List (String × FileTree)}
    (directory : disk.tree.get? home = some (.directory entries)) :
    ∃ target, after.locate (indexPath root) = .ok target ∧ after.base = disk.base ∧
      Saves home index.toText.toUTF8 disk.tree target after.tree := by
  obtain ⟨made, target, making, followed, writable, rfl⟩ := exists_write_of_saveIndex saved
  obtain ⟨base, outcome⟩ := makeDirectories_cases making found directory
  refine ⟨target, Disk.locate_put followed writable _, base, ?_⟩
  rcases outcome with same | ⟨missing, new⟩
  · rw [same] at writable ⊢
    exact .ready writable
  · rw [new] at writable ⊢
    exact .fresh missing writable

theorem named_stateDirectory : Disk.Named Scan.stateDirectory :=
  ⟨by decide +kernel, by decide +kernel, by decide +kernel⟩

theorem named_index : Disk.Named "index.json" :=
  ⟨by decide +kernel, by decide +kernel, by decide +kernel⟩

/-- The way to the place of an index leads through the directory that it is for. -/
theorem exists_home_of_follow {target : Place} {stem : List String}
    (followed : disk.follow true (indexPath root) = .ok target)
    (pieces : Path.pieces (statePath root) = stem ++ [Scan.stateDirectory]) :
    ∃ home left entries,
      Disk.walk disk.tree false Disk.linkLimit (disk.origin (statePath root)) stem = .ok home ∧
      Disk.walk disk.tree true left home [Scan.stateDirectory, "index.json"] = .ok target ∧
      disk.tree.get? home = some (.directory entries) := by
  obtain ⟨_, _, whole⟩ := Disk.follow_eq_ok_iff.mp followed
  rw [pieces_indexPath, origin_indexPath, pieces, List.append_assoc] at whole
  obtain ⟨home, left, _, first, last⟩ := Disk.walk_append whole (by simp)
  obtain ⟨entries, directory⟩ := Disk.directory_of_walk last
  exact ⟨home, left, entries, first, last, directory⟩

/-- Where no link stands in the way, the index of a directory is stored two steps below it. -/
theorem target_eq_of_follow {home target : Place} {entries : List (String × FileTree)}
    {stem : List String} (followed : disk.follow true (indexPath root) = .ok target)
    (pieces : Path.pieces (statePath root) = stem ++ [Scan.stateDirectory])
    (walked : Disk.walk disk.tree false Disk.linkLimit (disk.origin (statePath root)) stem =
      .ok home)
    (directory : disk.tree.get? home = some (.directory entries))
    (state : ∀ path, disk.tree.get? (home ++ [Scan.stateDirectory]) ≠ some (.link path))
    (plain : ∀ path, disk.tree.get? (home ++ [Scan.stateDirectory, "index.json"]) ≠
      some (.link path)) :
    target = home ++ [Scan.stateDirectory, "index.json"] := by
  obtain ⟨between, left, _, first, last, _⟩ := exists_home_of_follow followed pieces
  cases walked.symm.trans first
  rw [FileTree.get?_entry directory] at state
  cases found : entries.lookup Scan.stateDirectory with
  | none =>
      rw [Disk.walk_missing directory named_stateDirectory found (by simp)] at last
      cases last
  | some child =>
      rw [Disk.walk_solid directory named_stateDirectory found fun path link =>
        state path (link ▸ found)] at last
      obtain ⟨inner, below⟩ := Disk.directory_of_walk last
      rw [List.append_cons, FileTree.get?_entry below] at plain
      cases stored : inner.lookup "index.json" with
      | none =>
          rw [Disk.walk_new below named_index stored] at last
          cases last
          exact List.append_assoc ..
      | some old =>
          rw [Disk.walk_solid below named_index stored fun path link => plain path (link ▸ stored),
            Disk.walk] at last
          cases last
          exact List.append_assoc ..

/-- A directory whose stored state is no link, and holds no link for the index, has its index two
steps below it. -/
theorem locate_indexPath_of_saveIndex {home : Place} {entries : List (String × FileTree)}
    (saved : saveIndex disk root index = (after, .ok ())) (found : disk.locate root = .ok home)
    (directory : disk.tree.get? home = some (.directory entries))
    (state : ∀ path, disk.tree.get? (home ++ [Scan.stateDirectory]) ≠ some (.link path))
    (plain : ∀ path, disk.tree.get? (home ++ [Scan.stateDirectory, "index.json"]) ≠
      some (.link path)) :
    after.locate (indexPath root) = .ok (home ++ [Scan.stateDirectory, "index.json"]) := by
  obtain ⟨made, target, making, followed, writable, rfl⟩ := exists_write_of_saveIndex saved
  obtain ⟨base, outcome⟩ := makeDirectories_cases making found directory
  obtain ⟨stem, pieces, walked⟩ :=
    Disk.steps_below found (rfl : Disk.isAbsolute Scan.stateDirectory = false)
  rw [pieces_stateDirectory] at pieces
  rw [Disk.locate_put followed writable]
  have origin : made.origin (statePath root) = disk.origin (statePath root) := by
    rw [Disk.origin, base, Disk.origin]
  refine congrArg Except.ok ?_
  rcases outcome with same | ⟨missing, new⟩
  · rw [← same] at directory state plain
    refine target_eq_of_follow followed pieces ?_ directory state plain
    rw [same, origin]
    exact walked
  · have grows : Grows disk.tree made.tree := by
      rw [new]
      exact .put fun old known => by cases missing.symm.trans known
    obtain ⟨inner, there⟩ := grows.directory directory
    have fresh : made.tree.get? (home ++ [Scan.stateDirectory]) = some (.directory []) := by
      rw [new]
      exact FileTree.get?_put_of_grows grows there _ _
    refine target_eq_of_follow followed pieces ?_ there (by simp [fresh]) fun path => ?_
    · rw [origin]
      exact Disk.walk_of_grows grows walked (by simp) (Nat.le_refl _) false
    · rw [List.append_cons, FileTree.get?_of_bare (.inr fresh)]
      simp

/-- A missing directory whose path does not go up is made with nothing in it but the stored
state. -/
theorem find?_of_saveIndex_missing (saved : saveIndex disk root index = (after, .ok ()))
    (straight : ".." ∉ Path.pieces root)
    (missing : ∀ entries, disk.find? root ≠ some (.directory entries)) :
    after.find? root = none ∨
      ∃ inner, after.find? root = some (.directory [(Scan.stateDirectory, .directory inner)]) := by
  by_cases empty : root = ""
  · -- No entry has an empty path, and the stored state is made where relative paths start.
    subst empty
    exact .inl rfl
  refine .inr ?_
  obtain ⟨made, target, making, followed, writable, rfl⟩ := exists_write_of_saveIndex saved
  obtain ⟨usable, base, entered⟩ := enterAll_of_makeDirectories making
  have relative : Disk.isAbsolute Scan.stateDirectory = false := rfl
  obtain ⟨stem, pieces, shape⟩ := Disk.exists_stem empty relative
  rw [pieces_stateDirectory] at pieces
  have usable := Disk.usable_below empty relative usable
  have start (disk : Disk) : disk.origin (statePath root) = disk.origin root :=
    Disk.origin_below empty relative
  have origin : made.origin root = disk.origin root := by rw [Disk.origin, base, Disk.origin]
  have down : ".." ∉ stem := by
    rcases shape with same | blank
    · exact same ▸ straight
    · exact fun inside => straight (blank ▸ List.mem_append_left _ inside)
  obtain ⟨home, _, entries, walked, _, there⟩ := exists_home_of_follow followed pieces
  rw [statePath, pieces, ← statePath, start, ← origin, ← start] at entered
  rcases Disk.walk_or_made named_stateDirectory down entered walked
    there with ⟨found, old, directory⟩ | rfl
  · rw [start, origin] at found
    have located := Disk.locate_of_stem shape usable empty found directory
    exact absurd (Disk.find?_eq_some_iff.mpr ⟨home, located, directory⟩) (missing old)
  · have state := FileTree.get?_entry there Scan.stateDirectory
    rw [List.lookup_cons_self] at state
    have vacant : made.tree.get? (home ++ [Scan.stateDirectory, "index.json"]) = none := by
      rw [List.append_cons, FileTree.get?_of_bare (.inr state)]
    obtain rfl := target_eq_of_follow followed pieces walked there (by simp [state])
      (by simp [vacant])
    have below := FileTree.get?_put_below there [Scan.stateDirectory, "index.json"]
      (.file index.toText.toUTF8)
    simp only [FileTree.put, List.lookup_cons_self, Option.getD_some, insertEntry,
      Std.compare_self] at below
    refine ⟨_, Disk.find?_eq_some_iff.mpr
      ⟨home, Disk.locate_of_stem shape usable empty ?_ below, below⟩⟩
    rw [start] at walked
    exact Disk.walk_of_grows (writable.grows _) walked (by simp) (Nat.le_refl _) false

section Saves

variable {home target : Place} {bytes : ByteArray} {tree grown : FileTree}
  (saves : Saves home bytes tree target grown)
include saves

theorem Saves.grows : Grows tree grown := by
  cases saves with
  | ready writable => exact writable.grows bytes
  | fresh missing writable =>
      refine Grows.trans (.put fun old found => ?_) (writable.grows bytes)
      cases missing.symm.trans found

/-- Nothing that was there changes but for the stored index itself. -/
theorem Saves.kept {entries : List (String × FileTree)}
    (directory : tree.get? home = some (.directory entries)) {place : Place}
    (other : place ≠ target) (there : tree.get? place ≠ none) :
    (grown.get? place).map FileTree.shape = (tree.get? place).map FileTree.shape := by
  cases saves with
  | ready writable => exact FileTree.shape_get?_put writable (fun _ => rfl) other
  | fresh missing writable =>
      rw [FileTree.shape_get?_put writable (fun _ => rfl) other]
      refine FileTree.shape_get?_put ?_ (fun _ => rfl) fun same => there (same ▸ missing)
      rw [FileTree.get?_entry directory] at missing
      exact FileTree.writable_of_missing directory missing

theorem Saves.filesOf {entries : List (String × FileTree)}
    (directory : tree.get? home = some (.directory entries)) {filter : PathFilter}
    (hidden : ∀ rest, target = home ++ rest → Scan.passesOver filter rest = true) :
    ∃ inner, grown.get? home = some (.directory inner) ∧
      Scan.filesOf filter [] (.directory inner) = Scan.filesOf filter [] (.directory entries) := by
  cases saves with
  | ready writable => exact Scan.filesOf_put directory writable hidden bytes
  | fresh missing writable =>
      rw [FileTree.get?_entry directory] at missing
      obtain ⟨inner, there, same⟩ :=
        Scan.filesOf_put (FileTree.get?_put_below directory _ _) writable hidden bytes
      refine ⟨inner, there, same.trans ?_⟩
      refine Scan.filesOf_insertEntry ?_ ?_ (Scan.enters_stateDirectory filter [])
      · rw [missing]
        rfl
      · intro old known
        cases missing.symm.trans known

end Saves

/- A repository that is a whole disk. -/
section Top

variable {entries : List (String × FileTree)}

theorem pieces_statePath_top :
    Path.pieces (statePath "/") = ["", Scan.stateDirectory] := by decide +kernel

theorem pieces_indexPath_top :
    Path.pieces (indexPath "/") = ["", Scan.stateDirectory, "index.json"] := by
  rw [pieces_indexPath, pieces_statePath_top]
  rfl

theorem makeDirectories_top (fresh : entries.lookup Scan.stateDirectory = none) :
    (⟨.directory entries, []⟩ : Disk).makeDirectories (statePath "/") =
      (⟨.directory (insertEntry Scan.stateDirectory (.directory []) entries), []⟩, .ok ()) := by
  have here : (FileTree.directory entries).get? [] = some (.directory entries) := rfl
  have missing : (FileTree.directory entries).get? [Scan.stateDirectory] = none :=
    (FileTree.get?_entry here _).trans fresh
  have blank : Disk.enter (.directory entries) [] "" = .ok (.directory entries, []) :=
    Disk.enter_eq_ok_iff.mpr (.blank (.inl rfl))
  have made : Disk.enter (.directory entries) [] Scan.stateDirectory =
      .ok (_, [Scan.stateDirectory]) :=
    Disk.enter_eq_ok_iff.mpr (.made named_stateDirectory missing)
  have origin : (⟨.directory entries, []⟩ : Disk).origin (statePath "/") = [] := by
    rw [Disk.origin]
    split <;> rfl
  have placed : (FileTree.directory entries).put [Scan.stateDirectory] (.directory []) =
      .directory (insertEntry Scan.stateDirectory (.directory []) entries) := by
    rw [FileTree.put, fresh]
    rfl
  rw [List.nil_append, placed] at made
  rw [makeDirectories_of_usable (by decide +kernel), origin, pieces_statePath_top,
    Disk.enterAll, blank]
  simp only [Disk.enterAll, made]

theorem follow_indexPath_top (ready : entries.lookup Scan.stateDirectory = some (.directory [])) :
    (⟨.directory entries, []⟩ : Disk).follow true (indexPath "/") =
      .ok [Scan.stateDirectory, "index.json"] ∧
      (FileTree.directory entries).Writable [Scan.stateDirectory, "index.json"] := by
  have here : (FileTree.directory entries).get? [] = some (.directory entries) := rfl
  have state : (FileTree.directory entries).get? [Scan.stateDirectory] = some (.directory []) :=
    (FileTree.get?_entry here _).trans ready
  constructor
  · rw [Disk.follow_top_iff (by decide +kernel) (by decide +kernel) pieces_indexPath_top,
      Disk.walk_solid here named_stateDirectory ready (by simp), List.nil_append, Disk.walk, state]
    simp [named_index.down, named_index.short]
  · exact FileTree.writable_of_missing state rfl

/-- Where the whole disk is the repository and has nothing stored yet, an index can be stored. -/
theorem saveIndex_top (fresh : entries.lookup Scan.stateDirectory = none) (index : RepoIndex) :
    ∃ top inner, saveIndex ⟨.directory entries, []⟩ "/" index = (⟨.directory top, []⟩, .ok ()) ∧
      (⟨.directory top, []⟩ : Disk).locate (indexPath "/") =
        .ok [Scan.stateDirectory, "index.json"] ∧
      top.lookup Scan.stateDirectory = some (.directory inner) ∧
      ∀ name ≠ Scan.stateDirectory, top.lookup name = entries.lookup name := by
  have ready : (insertEntry Scan.stateDirectory (.directory []) entries).lookup
      Scan.stateDirectory =
      some (.directory []) := by rw [lookup_insertEntry, if_pos rfl]
  obtain ⟨followed, writable⟩ := follow_indexPath_top ready
  have located := Disk.locate_put followed writable index.toText.toUTF8
  have written := Disk.write_of_follow followed writable index.toText.toUTF8
  simp only [FileTree.put, ready, Option.getD_some] at located written
  refine ⟨_, _, ?_, located, (lookup_insertEntry ..).trans (if_pos rfl), ?_⟩
  · rw [saveIndex, writeText, makeDirectories_top fresh]
    simp only [written]
  · intro name other
    rw [lookup_insertEntry, if_neg other, lookup_insertEntry, if_neg other]

theorem loadIndex?_top (fresh : entries.lookup Scan.stateDirectory = none) :
    loadIndex? ⟨.directory entries, []⟩ "/" = none := by
  refine loadIndex?_eq_none fun bytes read => ?_
  obtain ⟨place, located, _⟩ := Disk.read_eq_ok_iff.mp read
  rw [Disk.locate, Disk.follow_top_iff (by decide +kernel) (by decide +kernel) pieces_indexPath_top,
    Disk.walk_missing rfl named_stateDirectory fresh (by simp)] at located
  cases located

end Top

end Store

end SourceAtlas
