/- What the payload of a signature says about the sources. The marks between its parts are not
escaped, so a path with a bar in it can pass for two sources. Without such paths a payload has one
reading, from its end to its start: digests and counts have none of the marks in them. -/
import Mathlib.Data.List.Basic
import Mathlib.Data.List.Induction
import SourceAtlas.Proofs.Session

namespace SourceAtlas.Signature

/-- A source as a payload has it. -/
def written (source : String × String) : List Char :=
  '|' :: (source.1.toList ++ ':' :: source.2.toList)

/-- A text without the marks of a payload. -/
def Unmarked (text : List Char) : Prop := '|' ∉ text ∧ ':' ∉ text ∧ '=' ∉ text

section Texts

theorem toList_join_cons (separator part : String) (rest : List String) :
    (Text.join separator (part :: rest)).toList =
      part.toList ++ rest.flatMap fun next => separator.toList ++ next.toList := by
  simp only [Text.join, String.toList_ofList]
  induction rest generalizing part with
  | nil => simp
  | cons next rest ih =>
      rw [List.map_cons, List.map_cons, List.intercalate_cons_cons, ← List.map_cons, ih,
        List.flatMap_cons]
      simp only [List.append_assoc]

/-- A joined text ends with its last part. -/
theorem toList_join_last (separator : String) {parts : List String} (filled : parts ≠ []) :
    ∃ start, ∃ last ∈ parts, (Text.join separator parts).toList = start ++ last.toList := by
  cases parts with
  | nil => exact absurd rfl filled
  | cons part rest =>
      rcases List.eq_nil_or_concat' rest with rfl | ⟨others, last, rfl⟩
      · exact ⟨[], part, by simp, by simp⟩
      · have split : (Text.join separator (part :: (others ++ [last]))).toList = (part.toList ++
            others.flatMap (fun next => separator.toList ++ next.toList) ++ separator.toList) ++
              last.toList := by
          rw [toList_join_cons, List.flatMap_append, List.flatMap_singleton]
          simp only [List.append_assoc]
        exact ⟨_, last, by simp, split⟩

theorem unmarked_of_isAlphanum {text : List Char} (plain : ∀ char ∈ text, char.isAlphanum = true) :
    Unmarked text :=
  ⟨fun member => absurd (plain _ member) (by decide),
    fun member => absurd (plain _ member) (by decide),
    fun member => absurd (plain _ member) (by decide)⟩

theorem unmarked_toString (count : Nat) : Unmarked (toString count).toList := by
  rw [Nat.toString_eq_ofList_toDigits, String.toList_ofList]
  refine unmarked_of_isAlphanum fun char member => ?_
  have digit := Nat.isDigit_of_mem_toDigits (by decide) (by decide) member
  simp [Char.isAlphanum, digit]

theorem unmarked_hex (bytes : List UInt8) : Unmarked (Digest.hex bytes).toList := by
  have digit : ∀ n ∈ List.range 16, (Nat.digitChar n).isAlphanum = true := by decide
  rw [Digest.hex, String.toList_ofList]
  refine unmarked_of_isAlphanum fun char member => ?_
  obtain ⟨byte, _, inside⟩ := List.mem_flatMap.mp member
  have bound := byte.toNat_lt
  rcases List.mem_cons.mp inside with rfl | low
  · exact digit _ (List.mem_range.mpr (by omega))
  · rw [List.mem_singleton.mp low]
    exact digit _ (List.mem_range.mpr (by omega))

end Texts

theorem unmarked_digestOf (disk : Disk) (root path : String) :
    Unmarked (digestOf disk root path).toList := by
  delta digestOf
  cases disk.read (Disk.below root path) with
  | ok bytes => exact unmarked_hex _
  | error fault => simp [Unmarked]

theorem toList_payload (disk : Disk) (root : String) (commit : Option String) (scan : ScanResult) :
    (payload disk root commit scan .content).toList =
      (fingerprint commit scan).toList ++ (digests disk root scan).flatMap written := by
  simp only [payload]
  rw [toList_join_cons, List.flatMap_map]
  refine congrArg (_ ++ List.flatMap · _) (funext fun source => ?_)
  simp [written]

/-- A fingerprint ends with the bar before its extensions, or with the count of the last of them. -/
theorem fingerprint_end (commit : Option String) (scan : ScanResult) :
    ∃ start, (fingerprint commit scan).toList = start ++ ['|'] ∨
      ∃ count : Nat, (fingerprint commit scan).toList =
        start ++ '=' :: (toString count).toList := by
  let extensions := scan.extensionCounts.toList.map fun pair => pair.1 ++ "=" ++ toString pair.2
  obtain ⟨lead, parts⟩ :
      ∃ lead, (fingerprint commit scan).toList =
        lead ++ '|' :: (Text.join "," extensions).toList := by
    refine ⟨(commit.getD "").toList ++ '|' :: (toString scan.totalFiles).toList ++
      '|' :: (toString scan.totalBytes).toList ++ '|' :: (toString scan.sources.length).toList, ?_⟩
    simp [fingerprint, toList_join_cons, extensions]
  by_cases bare : extensions = []
  · refine ⟨lead, .inl ?_⟩
    rw [parts, bare]
    rfl
  · obtain ⟨start, last, listed, ends⟩ := toList_join_last "," bare
    obtain ⟨⟨extension, count⟩, _, rfl⟩ := List.mem_map.mp listed
    refine ⟨lead ++ '|' :: start ++ extension.toList, .inr ⟨count, ?_⟩⟩
    rw [parts, ends]
    simp

/-- What a source is made of when it can be read back. -/
def Legible (source : String × String) : Prop := '|' ∉ source.1.toList ∧ Unmarked source.2.toList

theorem Legible.clear {source : String × String} (legible : Legible source) :
    '|' ∉ source.1.toList ++ ':' :: source.2.toList := by
  simp [legible.1, legible.2.1]

/-- No fingerprint ends as a source does. -/
theorem fingerprint_ne_written {commit : Option String} {scan : ScanResult} {start : List Char}
    {source : String × String} (legible : Legible source) :
    (fingerprint commit scan).toList ≠ start ++ written source := by
  intro same
  obtain ⟨lead, last | ⟨count, last⟩⟩ := fingerprint_end commit scan
  · rw [last] at same
    obtain ⟨-, -, empty⟩ := Text.eq_of_cut_last List.not_mem_nil legible.clear same
    simp at empty
  · have cut : lead ++ '=' :: (toString count).toList =
        (start ++ '|' :: source.1.toList) ++ ':' :: source.2.toList := by
      rw [← last, same, written]
      simp
    obtain ⟨-, marks, -⟩ := Text.eq_of_cut_last (unmarked_toString count).2.1 legible.2.2.2 cut
    cases marks

theorem written_inj {source other : String × String} {before after : List Char}
    (legible : Legible source) (alsoLegible : Legible other)
    (same : before ++ written source = after ++ written other) :
    before = after ∧ source = other := by
  obtain ⟨starts, -, rests⟩ := Text.eq_of_cut_last legible.clear alsoLegible.clear same
  obtain ⟨paths, -, digests⟩ := Text.eq_of_cut_last legible.2.2.1 alsoLegible.2.2.1 rests
  exact ⟨starts, Prod.ext (String.ext paths) (String.ext digests)⟩

/-- Sources at the end of a text are read one by one from the last, as long as what is before them
does not end as a source does. -/
theorem append_written_inj {first second : List (String × String)} {before after : List Char}
    (legible : ∀ source ∈ first, Legible source) (alsoLegible : ∀ source ∈ second, Legible source)
    (stop : ∀ start source, Legible source → before ≠ start ++ written source)
    (alsoStop : ∀ start source, Legible source → after ≠ start ++ written source)
    (same : before ++ first.flatMap written = after ++ second.flatMap written) :
    before = after ∧ first = second := by
  -- A start of the text has many readings: a commit may look like sources.
  induction first using List.reverseRecOn generalizing second with
  | nil =>
      rcases List.eq_nil_or_concat' second with rfl | ⟨others, last, rfl⟩
      · simpa using same
      · rw [List.flatMap_nil, List.append_nil, List.flatMap_append, List.flatMap_singleton,
          ← List.append_assoc] at same
        exact absurd same (stop _ last (alsoLegible last (by simp)))
  | append_singleton rest last ih =>
      rw [List.flatMap_append, List.flatMap_singleton, ← List.append_assoc] at same
      rcases List.eq_nil_or_concat' second with rfl | ⟨others, final, rfl⟩
      · rw [List.flatMap_nil, List.append_nil] at same
        exact absurd same.symm (alsoStop _ last (legible last (by simp)))
      · rw [List.flatMap_append, List.flatMap_singleton, ← List.append_assoc] at same
        obtain ⟨earlier, lasts⟩ :=
          written_inj (legible last (by simp)) (alsoLegible final (by simp)) same
        obtain ⟨starts, lists⟩ := ih (fun source member => legible source (by simp [member]))
          (fun source member => alsoLegible source (by simp [member])) earlier
        exact ⟨starts, by rw [lists, lasts]⟩

theorem legible_digests {disk : Disk} {root : String} {scan : ScanResult}
    (plain : ∀ source ∈ scan.sourceFiles, '|' ∉ source.1.toList) :
    ∀ source ∈ digests disk root scan, Legible source := by
  intro source member
  obtain ⟨file, listed, rfl⟩ := List.mem_map.mp member
  exact ⟨plain file listed, unmarked_digestOf disk root file.1⟩

/-- Where no source has a bar in its path, equal payloads have the same fingerprint and the same
sources with the same digests. Nothing is asked of the commits or of the extensions. -/
theorem payload_content_eq_iff {disk other : Disk} {root home : String}
    {commit revision : Option String} {scan rescan : ScanResult}
    (plain : ∀ source ∈ scan.sourceFiles, '|' ∉ source.1.toList)
    (alsoPlain : ∀ source ∈ rescan.sourceFiles, '|' ∉ source.1.toList) :
    payload disk root commit scan .content = payload other home revision rescan .content ↔
      fingerprint commit scan = fingerprint revision rescan ∧
        digests disk root scan = digests other home rescan := by
  constructor
  · intro same
    have texts := congrArg String.toList same
    rw [toList_payload, toList_payload] at texts
    obtain ⟨prints, sources⟩ := append_written_inj (legible_digests plain)
      (legible_digests alsoPlain)
      (fun _ _ => fingerprint_ne_written) (fun _ _ => fingerprint_ne_written) texts
    exact ⟨String.ext prints, sources⟩
  · rintro ⟨prints, sources⟩
    simp only [payload, prints, sources]

section Top

variable {entries : List (String × FileTree)}

/-- The sources of a scan that are files at the top of the disk, with what is in them. -/
theorem digests_top {scan : ScanResult} (found : List (String × ByteArray))
    (files : scan.sourceFiles.map Prod.fst = found.map Prod.fst)
    (atTop : ∀ file ∈ found, Disk.AtTop file.1 (Disk.below "/" file.1))
    (stored : ∀ file ∈ found, entries.lookup file.1 = some (.file file.2)) :
    digests ⟨.directory entries, []⟩ "/" scan = found.map fun file =>
      (file.1, Digest.ofBytes file.2) := by
  have paths : digests ⟨.directory entries, []⟩ "/" scan =
      (scan.sourceFiles.map Prod.fst).map fun path =>
      (path, digestOf ⟨.directory entries, []⟩ "/" path) := by
    rw [List.map_map]
    rfl
  rw [paths, files, List.map_map]
  refine List.map_congr_left fun file member => Prod.ext rfl ?_
  have located := (Disk.locate_atTop (atTop file member) (stored file member)).2
  exact digestOf_top located (stored file member)

end Top

/-- A disk with one source. -/
def oneSource (text : String) : Disk := ⟨.directory [("a.py", .file text.toUTF8)], []⟩

/-- The digest of no bytes. -/
def emptyDigest : String := "e3b0c44298fc1c149afbf4c8996fb92427ae41e4649b934ca495991b7852b855"

theorem ofBytes_empty : Digest.ofBytes .empty = emptyDigest := by
  decide +kernel

theorem payload_content_eq_iff_edited :
    let scan : ScanResult := { sources := [("a.py", .python)], totalFiles := 1, totalBytes := 1 }
    (∀ source ∈ scan.sourceFiles, '|' ∉ source.1.toList) ∧
      payload (oneSource "1") "/" none scan .content ≠
        payload (oneSource "2") "/" none scan .content := by
  intro scan
  have plain : ∀ source ∈ scan.sourceFiles, '|' ∉ source.1.toList := by decide
  refine ⟨plain, fun same => ?_⟩
  have sources := ((payload_content_eq_iff plain plain).mp same).2
  have atTop : Disk.AtTop "a.py" (Disk.below "/" "a.py") := by decide +kernel
  have read (text : String) : digests (oneSource text) "/" scan =
      [("a.py", Digest.ofBytes text.toUTF8)] :=
    digests_top [("a.py", text.toUTF8)] rfl (by simpa using atTop) (by simp)
  rw [read, read] at sources
  exact absurd sources (by decide +kernel)

def emptyFiles (names : List String) : List (String × FileTree) :=
  names.map fun name => (name, .file .empty)

theorem lookup_emptyFiles {names : List String} {name : String} (member : name ∈ names) :
    (emptyFiles names).lookup name = some (.file .empty) := by
  induction names with
  | nil => cases member
  | cons head rest ih =>
      rw [emptyFiles, List.map_cons, lookup_cons_eq_ite]
      split
      · rfl
      · next other => exact ih ((List.mem_cons.mp member).resolve_left other)

/-- A scan of files without a byte in them, worked out from the patterns. -/
theorem scan_emptyFiles {config : AtlasConfig} {names : List String} {print : String}
    (atTop : ∀ name ∈ names, Disk.AtTop name (Disk.below "/" name))
    (shown : config.filter.toOption.map
      (fun filter =>
        let scan :=
          Scan.ofTree filter config.maxFileSize config.maxFiles (.directory (emptyFiles names))
        (scan.sourceFiles.map Prod.fst, fingerprint none scan)) = some (names, print)) :
    ∃ scan, scanRepository ⟨.directory (emptyFiles names), []⟩ "/" config = .ok scan ∧
      fingerprint none scan = print ∧
      digests ⟨.directory (emptyFiles names), []⟩ "/" scan = names.map fun name =>
        (name, emptyDigest) := by
  obtain ⟨scan, scanned⟩ : ∃ scan,
    scanRepository ⟨.directory (emptyFiles names), []⟩ "/" config = .ok scan := by
    cases compiled : config.filter with
    | error error =>
        rw [compiled] at shown
        cases shown
    | ok filter => exact ⟨_, IndexCall.scanRepository_of_filter _ _ compiled⟩
  obtain ⟨files, prints⟩ := Prod.mk.inj
    (scan_top (fun scan => (scan.sourceFiles.map Prod.fst, fingerprint none scan))
    scanned shown)
  have pairs : (names.map fun name => (name, ByteArray.empty)).map Prod.fst = names := by
    rw [List.map_map]
    exact List.map_id names
  have read := digests_top (names.map fun name => (name, .empty)) (files.trans pairs.symm)
    (List.forall_mem_map.mpr atTop)
    (List.forall_mem_map.mpr fun name listed => lookup_emptyFiles listed)
  rw [List.map_map] at read
  refine ⟨scan, scanned, prints, read.trans ?_⟩
  exact List.map_congr_left fun name _ => Prod.ext rfl ofBytes_empty

/-- Three sources with one digest can be taken for two in two ways. -/
theorem written_ambiguous (first second third digest : String) :
    [(first, digest), (second ++ ":" ++ digest ++ "|" ++ third, digest)].flatMap written =
      [(first ++ ":" ++ digest ++ "|" ++ second, digest), (third, digest)].flatMap written := by
  simp [written]

def pythonConfig : AtlasConfig where
  includePatterns := ["*.py"]
  excludePatterns := []
  signature := .content

def barredLast : List String := ["a.py", "b.py" ++ ":" ++ emptyDigest ++ "|" ++ "c.py"]

def barredFirst : List String := ["a.py" ++ ":" ++ emptyDigest ++ "|" ++ "b.py", "c.py"]

/-- Scans of different sources have one payload. -/
theorem payload_not_injective :
    ∃ scan rescan, scanRepository ⟨.directory (emptyFiles barredLast), []⟩ "/" pythonConfig =
      .ok scan ∧
      scanRepository ⟨.directory (emptyFiles barredFirst), []⟩ "/" pythonConfig = .ok rescan ∧
      payload ⟨.directory (emptyFiles barredLast), []⟩ "/" none scan .content =
        payload ⟨.directory (emptyFiles barredFirst), []⟩ "/" none rescan .content ∧
      digests ⟨.directory (emptyFiles barredLast), []⟩ "/" scan ≠
        digests ⟨.directory (emptyFiles barredFirst), []⟩ "/" rescan := by
  have atTop : ∀ name ∈ barredLast ++ barredFirst, Disk.AtTop name (Disk.below "/" name) := by
    decide +kernel
  have shown : ∀ names ∈ [barredLast, barredFirst], pythonConfig.filter.toOption.map (fun filter =>
      let scan := Scan.ofTree filter pythonConfig.maxFileSize pythonConfig.maxFiles
        (.directory (emptyFiles names))
      (scan.sourceFiles.map Prod.fst, fingerprint none scan)) =
        some (names, "|2|0|2|.py=2") := by decide +kernel
  obtain ⟨scan, scanned, print, sources⟩ := scan_emptyFiles
    (fun name member => atTop name (List.mem_append_left _ member)) (shown barredLast (by simp))
  obtain ⟨rescan, rescanned, reprint, others⟩ := scan_emptyFiles
    (fun name member => atTop name (List.mem_append_right _ member)) (shown barredFirst (by simp))
  refine ⟨scan, rescan, scanned, rescanned, String.ext ?_, ?_⟩
  · rw [toList_payload, toList_payload, print, reprint, sources, others]
    exact congrArg _ (written_ambiguous "a.py" "b.py" "c.py" emptyDigest)
  · rw [sources, others]
    exact fun same => absurd (congrArg (fun list => list.map Prod.fst) same) (by decide +kernel)

end SourceAtlas.Signature
