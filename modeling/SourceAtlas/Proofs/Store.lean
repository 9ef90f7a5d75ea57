/- The stored form of an index loses nothing: what is saved is what is loaded. -/
import SourceAtlas.Proofs.Codec
import SourceAtlas.Proofs.Disk
import SourceAtlas.Store

namespace SourceAtlas

open Json (Canonical canonical_record faithful_text faithful_word faithful_optText
  recordFields?_record
  required? defaulted?_eq)

namespace RepoIndex

theorem canonical_toJson (index : RepoIndex) : Canonical index.toJson := by
  have time : Canonical (Json.float index.generatedAt) := by
    rw [Json.float]
    split
    · exact .number (Decimal.numeral_toText Json.layout index.generatedAt)
    · exact .null
  refine canonical_record ?_
  simp [faithful_text.canonical, faithful_optText.canonical, SymbolNode.faithful.map.canonical,
    GraphEdge.faithful.list.canonical, TocEntry.faithful.list.canonical,
    Warning.faithful.list.canonical, faithful_word.map.canonical, time]

theorem ofJson?_toJson {index : RepoIndex} (finite : index.generatedAt.isFinite = true)
    (reads : Decimal.ofToken? (Decimal.toText Json.layout index.generatedAt) =
      some index.generatedAt) :
    ofJson? index.toJson = some index := by
  have time : (Json.float index.generatedAt).float? = some index.generatedAt := by
    rw [Json.float, if_pos finite]
    exact reads
  rw [toJson, ofJson?, recordFields?_record]
  · simp [required?, List.lookup_cons, faithful_text.back, faithful_optText.back,
      SymbolNode.faithful.map.back, GraphEdge.faithful.list.back, TocEntry.faithful.list.back,
      Warning.faithful.list.back, faithful_word.map.back, time]
  · decide
  · exact List.Sublist.refl _

theorem ofText?_toText {index : RepoIndex} (finite : index.generatedAt.isFinite = true)
    (reads : Decimal.ofToken? (Decimal.toText Json.layout index.generatedAt) =
      some index.generatedAt) :
    ofText? index.toText = some index := by
  rw [ofText?, toText, Json.pretty, index.canonical_toJson.parse?_write, Option.bind_some,
    ofJson?_toJson finite reads]

end RepoIndex

namespace Store

@[simp] theorem fromUTF8?_toUTF8 (text : String) : String.fromUTF8? text.toUTF8 = some text :=
  dif_pos text.isValidUTF8

theorem readText_of_writeText {disk after : Disk} {root path text : String}
    (written : writeText disk root path text = (after, .ok ())) :
    readText after path = .ok text := by
  rw [writeText] at written
  split at written
  · cases written
  · next made _ =>
      split at written
      · next stored =>
          obtain ⟨rfl, _⟩ := Prod.mk.inj written
          simp only [readText, Disk.read_of_write stored, fromUTF8?_toUTF8]
      · cases written

theorem loadIndex?_of_readText {disk : Disk} {root text : String}
    (read : readText disk (indexPath root) = .ok text) :
    loadIndex? disk root = RepoIndex.ofText? text := by
  delta loadIndex?
  rw [read]

/-- An index is loaded as it was saved, given that the text of its time stamp stands for it. -/
theorem loadIndex?_saveIndex (index : RepoIndex) (finite : index.generatedAt.isFinite = true)
    (reads : Decimal.ofToken? (Decimal.toText Json.layout index.generatedAt) =
      some index.generatedAt) :
    RepoIndex.ofText? index.toText = some index ∧
      ∀ disk root after, saveIndex disk root index = (after, .ok ()) →
        loadIndex? after root = some index := by
  have back := RepoIndex.ofText?_toText finite reads
  refine ⟨back, fun disk root after saved => ?_⟩
  rw [loadIndex?_of_readText (readText_of_writeText saved), back]

/-- A disk without entries. -/
def blankDisk : Disk := ⟨.directory [], []⟩

theorem saveIndex_blankDisk (index : RepoIndex) :
    ∃ after, saveIndex blankDisk "/" index = (after, .ok ()) := by
  have made : blankDisk.makeDirectories (statePath "/") =
      (⟨.directory [(".gitreader", .directory [])], []⟩, .ok ()) := rfl
  have followed : (⟨.directory [(".gitreader", .directory [])], []⟩ : Disk).follow true
      (indexPath "/") =
      .ok [".gitreader", "index.json"] := by
    have pieces : Path.pieces (indexPath "/") = ["", ".gitreader", "index.json"] := by
      decide +kernel
    have origin : ∀ disk : Disk, disk.origin (indexPath "/") = [] := fun disk => rfl
    have directory : ¬Disk.nameLimit < ".gitreader".utf8ByteSize := by decide +kernel
    have file : ¬Disk.nameLimit < "index.json".utf8ByteSize := by decide +kernel
    rw [Disk.follow_eq_ok_iff, pieces, origin]
    refine ⟨by decide +kernel, by decide +kernel, ?_⟩
    simp [Disk.walk, FileTree.get?, FileTree.child?, directory, file]
  simp [saveIndex, writeText, made, Disk.write, followed, FileTree.get?, FileTree.child?, bind,
    Except.bind]

/-- An index whose texts need every kind of escape, with the largest line number there is. -/
def awkwardIndex : RepoIndex where
  repoId := "say \"hi\"\\\n\x01"
  rootPath := "/données/😀"
  commit := none
  nodes := (∅ : TextMap SymbolNode).insert "file:\t.py"
    ⟨"file:\t.py", "\t.py", .file, "", none, some "\x7f\r\x0c\x08", some (.ofFile "\t.py"), none⟩
  edges := [⟨"file:\t.py", "external:os", .imports, .low⟩]
  toc := []
  warnings := [⟨"parse", "\x1f", "/", some 18446744073709551615⟩]
  stats := (∅ : TextMap UInt64).insert "" 0
  contentSignature := some ""
  generatedAt := 1700000000.25

theorem loadIndex?_saveIndex_awkward :
    awkwardIndex.generatedAt.isFinite = true ∧
      Decimal.ofToken? (Decimal.toText Json.layout awkwardIndex.generatedAt) =
        some awkwardIndex.generatedAt ∧
      ∃ after, saveIndex blankDisk "/" awkwardIndex = (after, .ok ()) ∧
        loadIndex? after "/" = some awkwardIndex := by
  have finite : awkwardIndex.generatedAt.isFinite = true := by decide +kernel
  have reads : Decimal.ofToken? (Decimal.toText Json.layout awkwardIndex.generatedAt) =
      some awkwardIndex.generatedAt := by decide +kernel
  obtain ⟨after, saved⟩ := saveIndex_blankDisk awkwardIndex
  exact ⟨finite, reads, after, saved,
    (loadIndex?_saveIndex awkwardIndex finite reads).2 _ _ _ saved⟩

end Store

end SourceAtlas
