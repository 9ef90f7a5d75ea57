/- Indexing a repository again and again, with edits between the calls. What is stored is always
what the last successful call returned; a stored index is only used again for the state it was made
for; and to store it does not change that state, as long as scans pass over the place where it is
stored. -/
import SourceAtlas.Index.Session
import SourceAtlas.Proofs.Integrity
import SourceAtlas.Proofs.Saving

namespace SourceAtlas

/-- A call of the indexer, with the parser and the time that it finds. -/
structure IndexCall where
  config : AtlasConfig := {}
  commit : Option String := none
  force : Bool := false
  parser : Parser
  now : Float

namespace IndexCall

variable (call : IndexCall) (root : String) (disk : Disk)

def run : Disk × Except AtlasError IndexOutcome :=
  IndexRequest.run ⟨root, call.config, call.commit, call.force⟩ call.parser call.now disk

/-- The text of the time of a call stands for that time. -/
def Dated : Prop :=
  call.now.isFinite = true ∧ Decimal.ofToken? (Decimal.toText Json.layout call.now) = some call.now

def signatureOf (scan : ScanResult) : String :=
  Signature.ofScan disk root call.commit scan call.config.signature

/-- What a call can do. -/
inductive Runs : Disk → Except AtlasError IndexOutcome → Prop
  | refused {error : AtlasError} : call.config.filter = .error error → Runs disk (.error error)
  | reused {scan : ScanResult} {index : RepoIndex} :
      scanRepository disk root call.config = .ok scan →
      call.force = false → Store.loadIndex? disk root = some index →
      index.contentSignature = some (call.signatureOf root disk scan) →
      Runs disk (.ok ⟨index, true, [{ phase := .scanning }]⟩)
  | stored {scan : ScanResult} {index : RepoIndex} {after : Disk} {progress : List IndexProgress} :
      scanRepository disk root call.config = .ok scan → index.generatedAt = call.now →
      index.contentSignature = some (call.signatureOf root disk scan) →
      Store.saveIndex disk root index = (after, .ok ()) → Runs after (.ok ⟨index, false, progress⟩)
  | unstored {index : RepoIndex} {after : Disk} {error : AtlasError} :
      Store.saveIndex disk root index = (after, .error error) → Runs after (.error error)

theorem scanRepository_of_filter {config : AtlasConfig} {filter : PathFilter}
    (compiled : config.filter = .ok filter) :
    scanRepository disk root config = .ok (Scan.ofTree filter config.maxFileSize config.maxFiles
      ((disk.find? root).getD (.directory []))) := by
  rw [scanRepository, compiled]
  rfl

theorem scanRepository_of_refused {config : AtlasConfig} {error : AtlasError}
    (refused : config.filter = .error error) :
    scanRepository disk root config = .error error := by
  rw [scanRepository, refused]
  rfl

theorem build_runs {scan : ScanResult} (scanned : scanRepository disk root call.config = .ok scan)
    {after : Disk} {result : Except AtlasError IndexOutcome}
    (built : IndexRequest.build ⟨root, call.config, call.commit, call.force⟩ call.parser call.now
      disk scan (call.signatureOf root disk scan) = (after, result)) :
    call.Runs root disk after result := by
  unfold IndexRequest.build at built
  obtain ⟨graph, _, finished⟩ :=
    buildGraph_sound (Reading.ofFiles call.parser disk root scan.sourceFiles).files
  simp only [finished] at built
  split at built
  · next saved =>
      cases built
      exact .stored scanned rfl rfl saved
  · next failed =>
      cases built
      exact .unstored failed

theorem runs {after : Disk} {result : Except AtlasError IndexOutcome}
    (ran : call.run root disk = (after, result)) :
    call.Runs root disk after result := by
  rw [run, IndexRequest.run] at ran
  cases compiled : call.config.filter with
  | error error =>
      rw [scanRepository_of_refused root disk compiled] at ran
      cases ran
      exact .refused compiled
  | ok filter =>
      have scanned := scanRepository_of_filter root disk compiled
      rw [scanned] at ran
      simp only at ran
      split at ran
      · next index reusable =>
          cases ran
          rw [IndexRequest.reusable?] at reusable
          split at reusable
          · cases reusable
          · next calm =>
              obtain ⟨loaded, fits⟩ := Option.filter_eq_some_iff.mp reusable
              exact .reused scanned (Bool.eq_false_iff.mpr calm) loaded (of_decide_eq_true fits)
      · exact call.build_runs root disk scanned ran

variable {call root disk}

theorem run_of_loaded {scan : ScanResult} {index : RepoIndex}
    (scanned : scanRepository disk root call.config = .ok scan)
    (loaded : Store.loadIndex? disk root = some index)
    (fits : index.contentSignature = some (call.signatureOf root disk scan))
    (calm : call.force = false) :
    call.run root disk = (disk, .ok ⟨index, true, [{ phase := .scanning }]⟩) := by
  have reusable : IndexRequest.reusable? ⟨root, call.config, call.commit, call.force⟩ disk
      (call.signatureOf root disk scan) = some index := by
    rw [IndexRequest.reusable?, if_neg (by rw [calm]; exact Bool.false_ne_true), loaded,
      Option.filter_some, decide_eq_true fits, if_pos rfl]
  rw [signatureOf] at reusable
  rw [run, IndexRequest.run, scanned]
  simp only [reusable]

/-- A call that fails leaves the stored index as it was. -/
theorem loadIndex?_of_run_error {after : Disk} {error : AtlasError}
    (ran : call.run root disk = (after, .error error)) :
    Store.loadIndex? after root = Store.loadIndex? disk root := by
  cases call.runs root disk ran with
  | refused refused => rfl
  | unstored failed => exact Store.loadIndex?_of_saveIndex_error failed

/-- The index that a call returns is the one that is stored afterwards. -/
theorem loadIndex?_of_run_ok {after : Disk} {outcome : IndexOutcome} (dated : call.Dated)
    (ran : call.run root disk = (after, .ok outcome)) :
    Store.loadIndex? after root = some outcome.index := by
  cases call.runs root disk ran with
  | reused scanned calm loaded fits => exact loaded
  | stored scanned made signed saved =>
      rw [Store.loadIndex?_of_readText (Store.readText_of_writeText saved)]
      rw [Dated, ← made] at dated
      exact RepoIndex.ofText?_toText dated.1 dated.2

theorem signed_of_run_ok {after : Disk} {outcome : IndexOutcome}
    (ran : call.run root disk = (after, .ok outcome)) :
    ∃ scan, scanRepository disk root call.config = .ok scan ∧
      outcome.index.contentSignature = some (call.signatureOf root disk scan) := by
  cases call.runs root disk ran with
  | reused scanned calm loaded fits => exact ⟨_, scanned, fits⟩
  | stored scanned made signed saved => exact ⟨_, scanned, signed⟩

/-- Where an index is stored that does not fit, a call replaces it. -/
theorem run_of_stale {scan : ScanResult} {index : RepoIndex}
    (scanned : scanRepository disk root call.config = .ok scan)
    (loaded : Store.loadIndex? disk root = some index)
    (stale : index.contentSignature ≠ some (call.signatureOf root disk scan)) :
    ∃ after outcome, call.run root disk = (after, .ok outcome) ∧ outcome.fromCache = false := by
  obtain ⟨after, result, ran⟩ : ∃ after result, call.run root disk = (after, result) := ⟨_, _, rfl⟩
  cases call.runs root disk ran with
  | refused refused => cases (scanRepository_of_refused root disk refused).symm.trans scanned
  | reused again calm found fits =>
      cases scanned.symm.trans again
      cases loaded.symm.trans found
      exact absurd fits stale
  | stored again made signed saved => exact ⟨after, _, ran, rfl⟩
  | @unstored built after error failed =>
      by_cases unread : ∀ bytes, disk.read (Store.indexPath root) ≠ .ok bytes
      · cases (Store.loadIndex?_eq_none unread).symm.trans loaded
      · obtain ⟨bytes, read⟩ := not_forall_not.mp unread
        obtain ⟨_, saved⟩ := Store.saveIndex_of_read read built
        cases failed.symm.trans saved

end IndexCall

/-- What keeps a stored index out of the state that it stands for: a path to the repository that
goes up leads to a directory, scans pass over the place of the index, and no digest is taken of the
index itself or of a file that can only be read once the index is stored. -/
structure Secluded (disk after : Disk) (root : String) (config : AtlasConfig) : Prop where
  directory : ".." ∈ Path.pieces root → ∃ entries, disk.find? root = some (.directory entries)
  hidden : ∀ filter home rest, config.filter = .ok filter → disk.locate root = .ok home →
    after.locate (Store.indexPath root) = .ok (home ++ rest) → Scan.passesOver filter rest = true
  sources : config.signature = .content → ∀ scan, scanRepository disk root config = .ok scan →
    ∀ source ∈ scan.sourceFiles, ∀ bytes, after.read (Disk.below root source.1) = .ok bytes →
      (∃ old, disk.read (Disk.below root source.1) = .ok old) ∧
        disk.locate (Disk.below root source.1) ≠ after.locate (Store.indexPath root)

section Missing

variable {root : String} {disk : Disk}
  (missing : ∀ entries, disk.find? root ≠ some (.directory entries))
include missing

theorem Scan.filesOf_missing (filter : PathFilter) :
    filesOf filter [] ((disk.find? root).getD (.directory [])) = [] := by
  cases there : disk.find? root with
  | none => rfl
  | some tree =>
      cases tree with
      | directory entries => exact absurd there (missing entries)
      | file bytes => rfl
      | link target => rfl

theorem sourceFiles_missing {config : AtlasConfig} {scan : ScanResult}
    (scanned : scanRepository disk root config = .ok scan) : scan.sourceFiles = [] := by
  cases compiled : config.filter with
  | error error => cases (IndexCall.scanRepository_of_refused _ _ compiled).symm.trans scanned
  | ok filter =>
      rw [IndexCall.scanRepository_of_filter _ _ compiled, Scan.ofTree,
        Scan.filesOf_missing missing] at scanned
      cases scanned
      rfl

end Missing

section Stored

variable {call : IndexCall} {root : String} {disk after : Disk} {index : RepoIndex}
  (saved : Store.saveIndex disk root index = (after, .ok ()))
include saved

/-- In a directory whose stored state is no link, and holds no link for the index, scans pass over
the index. -/
theorem passesOver_of_saveIndex {entries : List (String × FileTree)}
    (there : disk.find? root = some (.directory entries))
    (state : ∀ path, entries.lookup Scan.stateDirectory ≠ some (.link path))
    (plain : ∀ inner path, entries.lookup Scan.stateDirectory = some (.directory inner) →
      inner.lookup "index.json" ≠ some (.link path))
    {filter : PathFilter} {home rest : Place} (found : disk.locate root = .ok home)
    (stored : after.locate (Store.indexPath root) = .ok (home ++ rest)) :
    Scan.passesOver filter rest = true := by
  obtain ⟨_, same, directory⟩ := Disk.find?_eq_some_iff.mp there
  cases found.symm.trans same
  have entry := FileTree.get?_entry directory Scan.stateDirectory
  have solid : ∀ path, disk.tree.get? (home ++ [Scan.stateDirectory, "index.json"]) ≠
      some (.link path) := by
    intro path link
    rw [List.append_cons, FileTree.get?_step] at link
    obtain ⟨child, known, inside⟩ := Option.bind_eq_some_iff.mp link
    cases child with
    | directory inner => exact plain inner path (entry.symm.trans known) inside
    | file bytes => cases inside
    | link target => cases inside
  have placed := Store.locate_indexPath_of_saveIndex saved found directory
    (by rw [entry]; exact state) solid
  obtain rfl := List.append_cancel_left (Except.ok.inj (stored.symm.trans placed))
  rw [Scan.passesOver, Scan.enters_stateDirectory]
  rfl

/-- Storing an index leaves alone what can be read somewhere else. -/
theorem Store.read_of_saveIndex {home : Place} {entries : List (String × FileTree)}
    (found : disk.locate root = .ok home)
    (directory : disk.tree.get? home = some (.directory entries)) {path : String}
    {bytes : ByteArray} (read : disk.read path = .ok bytes)
    (apart : disk.locate path ≠ after.locate (Store.indexPath root)) :
    after.read path = .ok bytes := by
  obtain ⟨target, stored, base, saves⟩ := Store.saves_of_saveIndex saved found directory
  obtain ⟨place, located, file⟩ := Disk.read_eq_ok_iff.mp read
  have other : place ≠ target := by
    rintro rfl
    exact apart (located.trans stored.symm)
  have kept := saves.kept directory other (by simp [file])
  rw [file] at kept
  obtain ⟨grown, there, same⟩ := Option.map_eq_some_iff.mp kept
  refine Disk.read_eq_ok_iff.mpr ⟨place, Disk.locate_of_grows base saves.grows located, ?_⟩
  cases grown with
  | file content =>
      cases same
      exact there
  | link path => cases same
  | directory inner => cases same

/-- What could be read can be read, if not always with the same bytes. -/
theorem Store.exists_read_of_saveIndex {home : Place} {entries : List (String × FileTree)}
    (found : disk.locate root = .ok home)
    (directory : disk.tree.get? home = some (.directory entries)) {path : String}
    {bytes : ByteArray} (read : disk.read path = .ok bytes) :
    ∃ content, after.read path = .ok content := by
  obtain ⟨target, stored, base, saves⟩ := Store.saves_of_saveIndex saved found directory
  obtain ⟨place, located, file⟩ := Disk.read_eq_ok_iff.mp read
  obtain ⟨grown, there, same⟩ := saves.grows place _ file
  cases grown with
  | file content =>
      exact ⟨content, Disk.read_eq_ok_iff.mpr
        ⟨place, Disk.locate_of_grows base saves.grows located, there⟩⟩
  | link path => cases same
  | directory inner => cases same

/-- Storing an index where scans do not look leaves them as they were. -/
theorem scanRepository_of_saveIndex {config : AtlasConfig}
    (directory : ".." ∈ Path.pieces root → ∃ entries, disk.find? root = some (.directory entries))
    (hidden : ∀ filter home rest,
      config.filter = .ok filter → disk.locate root = .ok home →
        after.locate (Store.indexPath root) = .ok (home ++ rest) →
        Scan.passesOver filter rest = true) :
    scanRepository after root config = scanRepository disk root config := by
  cases compiled : config.filter with
  | error error =>
      rw [IndexCall.scanRepository_of_refused _ _ compiled,
        IndexCall.scanRepository_of_refused _ _ compiled]
  | ok filter =>
      rw [IndexCall.scanRepository_of_filter _ _ compiled,
        IndexCall.scanRepository_of_filter _ _ compiled, Scan.ofTree, Scan.ofTree]
      by_cases missing : ∀ entries, disk.find? root ≠ some (.directory entries)
      · have straight : ".." ∉ Path.pieces root := by
          intro up
          obtain ⟨entries, there⟩ := directory up
          exact missing entries there
        rw [Scan.filesOf_missing missing]
        rcases Store.find?_of_saveIndex_missing saved straight missing with unmade | ⟨inner, made⟩
        · rw [unmade]
          rfl
        · rw [made, Option.getD_some, Scan.filesOf, Scan.filesBelow, Scan.enters_stateDirectory]
          rfl
      · obtain ⟨entries, there⟩ := not_forall_not.mp missing
        obtain ⟨home, found, top⟩ := Disk.find?_eq_some_iff.mp there
        obtain ⟨target, stored, base, saves⟩ := Store.saves_of_saveIndex saved found top
        have passed (rest : Place) (below : target = home ++ rest) :
            Scan.passesOver filter rest = true :=
          hidden filter home rest compiled found (below ▸ stored)
        obtain ⟨inner, here, same⟩ := saves.filesOf top passed
        have again : after.find? root = some (.directory inner) :=
          Disk.find?_eq_some_iff.mpr ⟨home, Disk.locate_of_grows base saves.grows found, here⟩
        rw [again, there, Option.getD_some, Option.getD_some, same]

theorem signatureOf_of_saveIndex (secluded : Secluded disk after root call.config)
    {scan : ScanResult} (scanned : scanRepository disk root call.config = .ok scan) :
    call.signatureOf root after scan = call.signatureOf root disk scan := by
  refine congrArg Digest.ofText ?_
  cases mode : call.config.signature with
  | fingerprint => rfl
  | content =>
      have digests : Signature.digests after root scan = Signature.digests disk root scan := by
        rw [Signature.digests, Signature.digests]
        by_cases missing : ∀ entries, disk.find? root ≠ some (.directory entries)
        · rw [sourceFiles_missing missing scanned]
          rfl
        obtain ⟨entries, there⟩ := not_forall_not.mp missing
        obtain ⟨home, found, directory⟩ := Disk.find?_eq_some_iff.mp there
        refine List.map_congr_left fun source member => congrArg (Prod.mk source.1) ?_
        have read := secluded.sources mode scan scanned source member
        delta Signature.digestOf
        cases later : after.read (Disk.below root source.1) with
        | ok bytes =>
            obtain ⟨⟨old, before⟩, apart⟩ := read bytes later
            cases (Store.read_of_saveIndex saved found directory before apart).symm.trans later
            rw [before]
        | error fault =>
            cases before : disk.read (Disk.below root source.1) with
            | error fault => rfl
            | ok old =>
                obtain ⟨bytes, there⟩ := Store.exists_read_of_saveIndex saved found directory before
                cases later.symm.trans there
      rw [Signature.payload, Signature.payload, digests]

end Stored

/- The repository is a whole disk, without stored state or with it. -/
section Top

variable {entries : List (String × FileTree)}

theorem Disk.locate_top : (⟨.directory entries, []⟩ : Disk).locate "/" = .ok [] := by
  have pieces : Path.pieces "/" = ["", ""] := by decide +kernel
  rw [locate, follow_top_iff (by decide +kernel) (by decide +kernel) pieces,
    walk_blank rfl (.inl rfl), walk]

theorem Disk.find?_top : (⟨.directory entries, []⟩ : Disk).find? "/" = some (.directory entries) :=
  find?_eq_some_iff.mpr ⟨[], locate_top, rfl⟩

/-- The name of a file at the top, which a path leads to straight. -/
def Disk.AtTop (name path : String) : Prop :=
  (¬(name = "" ∨ name = ".") ∧ name ≠ ".." ∧ ¬nameLimit < name.utf8ByteSize) ∧
    unusable? path = none ∧ isAbsolute path = true ∧ Path.pieces path = ["", name]

instance (name path : String) : Decidable (Disk.AtTop name path) :=
  inferInstanceAs (Decidable (_ ∧ _))

theorem Disk.locate_atTop {name path : String} {bytes : ByteArray} (atTop : AtTop name path)
    (file : entries.lookup name = some (.file bytes)) :
    walk (.directory entries) false linkLimit [] [name] = .ok [name] ∧
      (⟨.directory entries, []⟩ : Disk).locate path = .ok [name] := by
  obtain ⟨⟨plain, down, short⟩, usable, absolute, pieces⟩ := atTop
  have last : walk (.directory entries) false linkLimit [] [name] = .ok [name] := by
    rw [walk_solid rfl ⟨plain, down, short⟩ file (by simp), walk]
    rfl
  exact ⟨last, (follow_top_iff usable absolute pieces).mpr last⟩

/-- A file at the top is found straight, or by way of a directory beside it. -/
theorem Disk.locate_source {bytes : ByteArray} (file : entries.lookup "z.py" = some (.file bytes)) :
    (⟨.directory entries, []⟩ : Disk).locate "/z.py" = .ok ["z.py"] ∧
      ∀ inner, entries.lookup Scan.stateDirectory = some (.directory inner) →
        (⟨.directory entries, []⟩ : Disk).locate "/.gitreader/../z.py" = .ok ["z.py"] := by
  have here : (FileTree.directory entries).get? [] = some (.directory entries) := rfl
  have atTop : AtTop "z.py" "/z.py" := by decide +kernel
  obtain ⟨last, located⟩ := locate_atTop atTop file
  refine ⟨located, fun inner state => ?_⟩
  have pieces : Path.pieces "/.gitreader/../z.py" = ["", Scan.stateDirectory, "..", "z.py"] := by
    decide +kernel
  have below : (FileTree.directory entries).get? [Scan.stateDirectory] = some (.directory inner) :=
    (FileTree.get?_entry here _).trans state
  refine (follow_top_iff (by decide +kernel) (by decide +kernel) pieces).mpr ?_
  exact (walk_solid here Store.named_stateDirectory state (by simp)).trans
    ((walk_up below).trans last)

/-- On such a disk the first call stores an index. -/
theorem IndexCall.run_top {call : IndexCall} {filter : PathFilter}
    (compiled : call.config.filter = .ok filter)
    (fresh : entries.lookup Scan.stateDirectory = none) :
    ∃ top inner outcome, call.run "/" ⟨.directory entries, []⟩ =
      (⟨.directory top, []⟩, .ok outcome) ∧
      Store.saveIndex ⟨.directory entries, []⟩ "/" outcome.index = (⟨.directory top, []⟩, .ok ()) ∧
      outcome.fromCache = false ∧
      (⟨.directory top, []⟩ : Disk).locate (Store.indexPath "/") =
        .ok [Scan.stateDirectory, "index.json"] ∧
      top.lookup Scan.stateDirectory = some (.directory inner) ∧
      ∀ name ≠ Scan.stateDirectory, top.lookup name = entries.lookup name := by
  obtain ⟨after, result, ran⟩ : ∃ after result,
    call.run "/" ⟨.directory entries, []⟩ = (after, result) :=
    ⟨_, _, rfl⟩
  cases call.runs _ _ ran with
  | refused refused => cases compiled.symm.trans refused
  | reused scanned calm loaded fits => cases (Store.loadIndex?_top fresh).symm.trans loaded
  | @stored scan index after progress scanned made signed saved =>
      obtain ⟨top, inner, done, placed⟩ := Store.saveIndex_top fresh index
      cases saved.symm.trans done
      exact ⟨top, inner, _, ran, done, rfl, placed⟩
  | @unstored index after error failed =>
      obtain ⟨top, inner, done, _⟩ := Store.saveIndex_top fresh index
      cases failed.symm.trans done

/-- What a scan of a whole disk shows, worked out from the patterns. -/
theorem scan_top {config : AtlasConfig} {scan : ScanResult} {α : Type} {value : α}
    (view : ScanResult → α)
    (scanned : scanRepository ⟨.directory entries, []⟩ "/" config = .ok scan)
    (shown : config.filter.toOption.map
      (fun filter => view (Scan.ofTree filter config.maxFileSize config.maxFiles
        (.directory entries))) = some value) :
    view scan = value := by
  cases compiled : config.filter with
  | error error =>
      rw [compiled] at shown
      cases shown
  | ok filter =>
      rw [IndexCall.scanRepository_of_filter _ _ compiled, Disk.find?_top] at scanned
      rw [compiled] at shown
      cases scanned
      exact Option.some.inj shown

theorem payload_detour {disk : Disk} {scan : ScanResult} {detour plain : String}
    (files : scan.sourceFiles = [(".gitreader/../z.py", .python), ("z.py", .python)])
    (detoured : Signature.digestOf disk "/" ".gitreader/../z.py" = detour)
    (straight : Signature.digestOf disk "/" "z.py" = plain) :
    Signature.payload disk "/" none scan .content = Text.join "" [Signature.fingerprint none scan,
      "|" ++ ".gitreader/../z.py" ++ ":" ++ detour, "|" ++ "z.py" ++ ":" ++ plain] := by
  rw [Signature.payload, Signature.digests, files, ← detoured, ← straight]
  rfl

theorem digestOf_top {name path : String} {bytes : ByteArray}
    (located : (⟨.directory entries, []⟩ : Disk).locate (Disk.below "/" path) = .ok [name])
    (file : entries.lookup name = some (.file bytes)) :
    Signature.digestOf ⟨.directory entries, []⟩ "/" path = Digest.ofBytes bytes := by
  have here : (FileTree.directory entries).get? [] = some (.directory entries) := rfl
  have read := Disk.read_eq_ok_iff.mpr ⟨_, located, (FileTree.get?_entry here _).trans file⟩
  delta Signature.digestOf
  rw [read]

/-- Without the directory there is no way through it. -/
theorem digestOf_detour (fresh : entries.lookup Scan.stateDirectory = none) :
    Signature.digestOf ⟨.directory entries, []⟩ "/" ".gitreader/../z.py" = "" := by
  have path : Disk.below "/" ".gitreader/../z.py" = "/.gitreader/../z.py" := by decide +kernel
  have pieces : Path.pieces "/.gitreader/../z.py" = ["", Scan.stateDirectory, "..", "z.py"] := by
    decide +kernel
  delta Signature.digestOf
  rw [path]
  cases read : (⟨.directory entries, []⟩ : Disk).read "/.gitreader/../z.py" with
  | error fault => rfl
  | ok bytes =>
      obtain ⟨place, located, _⟩ := Disk.read_eq_ok_iff.mp read
      rw [Disk.locate, Disk.follow_top_iff (by decide +kernel) (by decide +kernel) pieces,
        Disk.walk_missing rfl Store.named_stateDirectory fresh (by simp)] at located
      cases located

end Top

theorem AtlasConfig.exists_filter {config : AtlasConfig} (compiles : config.filter.isOk = true) :
    ∃ filter, config.filter = .ok filter := by
  cases outcome : config.filter with
  | error error =>
      rw [outcome] at compiles
      cases compiles
  | ok filter => exact ⟨filter, rfl⟩

/-- A call that asks for digests, at a time whose text stands for it. -/
def contentCall : IndexCall where
  config := { signature := .content }
  parser := fun _ _ => none
  now := 1700000000.25

theorem dated_contentCall : contentCall.Dated := by
  constructor <;> decide +kernel

theorem filter_contentCall : ∃ filter, contentCall.config.filter = .ok filter :=
  AtlasConfig.exists_filter (by decide +kernel)

/-- Calls of the indexer on one repository, and edits between them that leave the stored index
alone. The indexes that were returned stand latest first. -/
inductive Session (root : String) (start : Disk) : List RepoIndex → Disk → Prop
  | start : Session root start [] start
  | edit {returned : List RepoIndex} {disk edited : Disk} : Session root start returned disk →
      Store.loadIndex? edited root = Store.loadIndex? disk root → Session root start returned edited
  | success {returned : List RepoIndex} {disk after : Disk} {call : IndexCall}
      {outcome : IndexOutcome} :
      Session root start returned disk → call.Dated → call.run root disk = (after, .ok outcome) →
      Session root start (outcome.index :: returned) after
  | failure {returned : List RepoIndex} {disk after : Disk} {call : IndexCall}
      {error : AtlasError} :
      Session root start returned disk → call.run root disk = (after, .error error) →
      Session root start returned after

namespace Session

variable {root : String} {start disk : Disk} {returned : List RepoIndex}

/-- At any time the stored index is the one returned last, or the one that was there at the
start. -/
theorem loadIndex?_eq (session : Session root start returned disk) :
    Store.loadIndex? disk root = returned.head?.or (Store.loadIndex? start root) := by
  induction session with
  | start => rfl
  | edit session kept ih => exact kept.trans ih
  | success session dated ran ih => exact IndexCall.loadIndex?_of_run_ok dated ran
  | failure session ran ih => exact (IndexCall.loadIndex?_of_run_error ran).trans ih

/-- The next call after any session. One with a faulty pattern does nothing, and one that fails
leaves the stored index as it was. One that succeeds stores what it returns, under the signature of
the state it found; it takes that from the store only if it may and the last call left it there. To
ask again then gives the same. -/
theorem run_coherent (session : Session root start returned disk) (call : IndexCall)
    (dated : call.Dated) :
    (∀ error, call.config.filter = .error error → call.run root disk = (disk, .error error)) ∧
      (∀ after error, call.run root disk = (after, .error error) →
        Store.loadIndex? after root = Store.loadIndex? disk root) ∧
      ∀ after outcome, call.run root disk = (after, .ok outcome) →
        Store.loadIndex? after root = some outcome.index ∧
        (∃ scan, scanRepository disk root call.config = .ok scan ∧
          outcome.index.contentSignature = some (call.signatureOf root disk scan)) ∧
        (outcome.fromCache = true →
          call.force = false ∧ returned.head?.or (Store.loadIndex? start root) =
            some outcome.index) ∧
        (outcome.fromCache = true ∨ Secluded disk after root call.config →
          ∀ parser now, { call with force := false, parser, now }.run root after =
            (after, .ok ⟨outcome.index, true, [{ phase := .scanning }]⟩)) := by
  refine ⟨fun error refused => ?_, fun after error ran => IndexCall.loadIndex?_of_run_error ran,
    fun after outcome ran => ⟨IndexCall.loadIndex?_of_run_ok dated ran,
      IndexCall.signed_of_run_ok ran, ?_, ?_⟩⟩
  · rw [IndexCall.run, IndexRequest.run, IndexCall.scanRepository_of_refused root disk refused]
  · intro cached
    cases call.runs root disk ran with
    | reused scanned calm loaded fits => exact ⟨calm, session.loadIndex?_eq.symm.trans loaded⟩
    | stored scanned made signed saved => cases cached
  · intro kept parser now
    have loaded := IndexCall.loadIndex?_of_run_ok dated ran
    cases call.runs root disk ran with
    | reused scanned calm stored fits => exact IndexCall.run_of_loaded scanned loaded fits rfl
    | stored scanned made signed saved =>
        rcases kept with cached | secluded
        · cases cached
        have again := (scanRepository_of_saveIndex saved secluded.directory secluded.hidden).trans
          scanned
        rw [← signatureOf_of_saveIndex saved secluded scanned] at signed
        exact IndexCall.run_of_loaded again loaded signed rfl

/-- A disk with one source. -/
def sourceEntries : List (String × FileTree) := [("z.py", .file .empty)]

theorem run_coherent_source :
    Session "/" ⟨.directory sourceEntries, []⟩ [] ⟨.directory sourceEntries, []⟩ ∧
      contentCall.Dated ∧
      ∃ after outcome, contentCall.run "/" ⟨.directory sourceEntries, []⟩ = (after, .ok outcome) ∧
        outcome.fromCache = false ∧
          Session "/" ⟨.directory sourceEntries, []⟩ [outcome.index] after ∧
        contentCall.run "/" after =
          (after, .ok ⟨outcome.index, true, [{ phase := .scanning }]⟩) := by
  obtain ⟨filter, compiled⟩ := filter_contentCall
  have file : sourceEntries.lookup "z.py" = some (.file .empty) := rfl
  have fresh : sourceEntries.lookup Scan.stateDirectory = none := rfl
  obtain ⟨top, inner, outcome, ran, saved, new, place, _⟩ := IndexCall.run_top compiled fresh
  have secluded : Secluded ⟨.directory sourceEntries, []⟩ ⟨.directory top, []⟩ "/"
      contentCall.config := by
    refine ⟨fun _ => ⟨_, Disk.find?_top⟩,
      fun _ _ _ _ => passesOver_of_saveIndex saved Disk.find?_top (by simp [fresh])
        (by simp [fresh]), ?_⟩
    intro _ scan scanned source member _ _
    have files : scan.sourceFiles = [("z.py", .python)] :=
      scan_top ScanResult.sourceFiles scanned (by decide +kernel)
    rw [files, List.mem_singleton] at member
    subst member
    have path : Disk.below "/" "z.py" = "/z.py" := by decide +kernel
    obtain ⟨located, _⟩ := Disk.locate_source file
    rw [path, located, place]
    exact ⟨⟨.empty, Disk.read_eq_ok_iff.mpr ⟨_, located, file⟩⟩, by simp⟩
  have session : Session "/" ⟨.directory sourceEntries, []⟩ [] ⟨.directory sourceEntries, []⟩ :=
    .start
  obtain ⟨_, _, _, again⟩ := (run_coherent session contentCall dated_contentCall).2.2 _ _ ran
  exact ⟨session, dated_contentCall, _, outcome, ran, new, .success session dated_contentCall ran,
    again (.inr secluded) _ _⟩

/-- A file whose name is read as a way through the directory of the stored state. -/
def detourEntries : List (String × FileTree) :=
  [(".gitreader\\..\\z.py", .file .empty), ("z.py", .file .empty)]

/-- Nothing is edited, and still the second call does not find the index of the first one good: the
digest of the first source could only be taken once the index was stored. -/
theorem run_again_detour :
    ∃ after last first second, contentCall.force = false ∧
      contentCall.run "/" ⟨.directory detourEntries, []⟩ = (after, .ok first) ∧
      contentCall.run "/" after = (last, .ok second) ∧ second.fromCache = false := by
  obtain ⟨filter, compiled⟩ := filter_contentCall
  have file : detourEntries.lookup "z.py" = some (.file .empty) := rfl
  have fresh : detourEntries.lookup Scan.stateDirectory = none := rfl
  obtain ⟨top, inner, first, ran, saved, _, _, state, kept⟩ := IndexCall.run_top compiled fresh
  obtain ⟨scan, scanned, signed⟩ := IndexCall.signed_of_run_ok ran
  have loaded := IndexCall.loadIndex?_of_run_ok dated_contentCall ran
  have again := (scanRepository_of_saveIndex saved (fun _ => ⟨_, Disk.find?_top⟩) fun _ _ _ _ =>
    passesOver_of_saveIndex saved Disk.find?_top (by simp [fresh]) (by simp [fresh])).trans scanned
  have shown : (scan.sourceFiles, Signature.fingerprint none scan) =
      ([(".gitreader/../z.py", .python), ("z.py", .python)], "|2|0|2|.py=2") :=
    scan_top (fun scan => (scan.sourceFiles, Signature.fingerprint none scan)) scanned
      (by decide +kernel)
  obtain ⟨files, print⟩ := Prod.mk.inj shown
  have source : top.lookup "z.py" = some (.file .empty) := (kept "z.py" (by decide)).trans file
  have plain : Disk.below "/" "z.py" = "/z.py" := by decide +kernel
  have path : Disk.below "/" ".gitreader/../z.py" = "/.gitreader/../z.py" := by decide +kernel
  obtain ⟨straight, _⟩ := Disk.locate_source file
  obtain ⟨straightLater, detour⟩ := Disk.locate_source source
  have before := payload_detour files (digestOf_detour fresh) (digestOf_top (plain ▸ straight) file)
  have later := payload_detour files (digestOf_top (path ▸ detour inner state) source)
    (digestOf_top (plain ▸ straightLater) source)
  rw [print] at before later
  have stale : first.index.contentSignature ≠
      some (contentCall.signatureOf "/" ⟨.directory top, []⟩ scan) := by
    rw [signed]
    intro same
    have digests := Option.some.inj same
    change Digest.ofText (Signature.payload _ "/" none scan .content) =
      Digest.ofText (Signature.payload _ "/" none scan .content) at digests
    rw [before, later] at digests
    exact absurd digests (by decide +kernel)
  obtain ⟨last, second, reran, new⟩ := IndexCall.run_of_stale again loaded stale
  exact ⟨_, last, first, second, rfl, ran, reran, new⟩

end Session

end SourceAtlas
