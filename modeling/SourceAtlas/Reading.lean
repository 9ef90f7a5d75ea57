/- Source files read from a disk. -/
import SourceAtlas.Disk.Basic
import SourceAtlas.Index.Basic
import SourceAtlas.Syntax.Source
import SourceAtlas.Text.Utf8

namespace SourceAtlas

/-- Finds the syntax tree of a text in a language. Grammars are not part of this library. -/
abbrev Parser : Type := Language → String → Option SyntaxTree

/-- Source files with what there was to complain about. -/
structure Reading where
  files : List SourceFile
  warnings : List Warning
deriving Inhabited

namespace Reading

/-- The faults of a parsed file. -/
def complaints (file : SourceFile) : List Warning :=
  match file.tree with
  | none => [⟨"parse_failed", "Parser returned no tree", file.path, none⟩]
  | some tree =>
    if tree.label.hasError then
      [⟨"syntax_error", "Tree-sitter reported syntax errors", file.path,
        (file.firstFaultLine? tree).map UInt64.ofNat⟩]
    else []

/-- One file of a repository. It is absent when it cannot be read. -/
def ofFile (parser : Parser) (disk : Disk) (root path : String) (language : Language) : Reading :=
  match disk.read (Disk.below root path) with
  | .error fault => ⟨[], [⟨"read_failed", fault.message, path, none⟩]⟩
  | .ok bytes =>
    let (text, mended) := Text.decode bytes
    let file : SourceFile := ⟨path, language, text, parser language text⟩
    let decoding : List Warning :=
      if mended then [⟨"decode_lossy", "Decoded with replacement characters", path, none⟩] else []
    ⟨[file], decoding ++ complaints file⟩

/-- Files of a repository, in order. -/
def ofFiles (parser : Parser) (disk : Disk) (root : String) (files : List (String × Language)) :
    Reading :=
  let readings := files.map fun (path, language) => ofFile parser disk root path language
  ⟨readings.flatMap Reading.files, readings.flatMap Reading.warnings⟩

end Reading

namespace RepoIndex

/-- The indexed files of one family of languages, in the order of their ids. -/
def filesIn (index : RepoIndex) (family : Family) : List (String × Language) :=
  index.nodes.values.filterMap fun node =>
    if node.kind = .file then do
      let path ← node.filePath?
      let language ← Language.ofPath? path
      if language.family = family then some (path, language) else none
    else none

/-- Reads the indexed files of one family once more. -/
def reread (index : RepoIndex) (parser : Parser) (disk : Disk) (family : Family) : Reading :=
  .ofFiles parser disk index.rootPath (index.filesIn family)

/-- The text of a file of the indexed repository as it is now. -/
def readText? (index : RepoIndex) (disk : Disk) (path : String) : Option String :=
  match disk.read (Disk.below index.rootPath path) with
  | .ok bytes => some (Text.decode bytes).1
  | .error _ => none

end RepoIndex

end SourceAtlas
