/- The files of a repository: which are sources, and what the others are. -/
import SourceAtlas.Config
import SourceAtlas.Disk.Basic
import SourceAtlas.Language
import SourceAtlas.TextMap

namespace SourceAtlas

/-- What a scan of a repository finds. -/
structure ScanResult where
  /-- Source files in the order in which they were found. -/
  sources : List (String × Language) := []
  /-- How many files that were looked at have each extension. -/
  extensionCounts : TextMap Nat := ∅
  /-- Files that are too large or binary. -/
  skipped : List String := []
  warnings : List Warning := []
  totalFiles : Nat := 0
  totalBytes : Nat := 0

namespace ScanResult

/-- The source files in one language. -/
def filesIn (scan : ScanResult) (language : Language) : List String :=
  (scan.sources.filter fun source => source.2 = language).map Prod.fst

/-- All source files, language by language. -/
def sourceFiles (scan : ScanResult) : List (String × Language) :=
  Language.all.flatMap fun language => (scan.filesIn language).map fun path => (path, language)

end ScanResult

namespace Scan

/-- A file with its repository-relative path. -/
structure Found where
  path : String
  bytes : ByteArray

/-- The directory in which an index and a configuration are stored. -/
def stateDirectory : String := ".gitreader"

/-- Directories that are never entered. -/
def skippedDirectories : List String :=
  [".git", ".hg", ".svn", "__pycache__", "node_modules", "instance", "venv", ".venv",
   "dist", "build", "DerivedData", ".swiftpm", ".build", "Pods", "Carthage", stateDirectory]

/-- The path of a place in the repository. -/
def relativePath (place : Place) : String := Path.normalize (Text.join "/" place)

/-- Whether a directory is entered. One is left out as a whole when patterns exclude it or
what lies directly in it. -/
def enters (filter : PathFilter) (place : Place) (name : String) : Bool :=
  let path := relativePath (place ++ [name])
  !(skippedDirectories.contains name || filter.excluded (path ++ "/") ||
    filter.excluded (path ++ "/_"))

/-- The files directly in a directory. -/
def filesHere (place : Place) (entries : List (String × FileTree)) : List Found :=
  entries.filterMap fun (name, tree) =>
    match tree with
    | .file bytes => some ⟨relativePath (place ++ [name]), bytes⟩
    | _ => none

mutual

/-- The files of a tree: those of a directory come before those of the directories in it. Links
are not followed. -/
def filesOf (filter : PathFilter) (place : Place) : FileTree → List Found
  | .directory entries => filesHere place entries ++ filesBelow filter place entries
  | _ => []

/-- The files in the directories among some entries. -/
def filesBelow (filter : PathFilter) (place : Place) : List (String × FileTree) → List Found
  | [] => []
  | (name, tree) :: rest =>
    (if enters filter place name then filesOf filter (place ++ [name]) tree else []) ++
      filesBelow filter place rest

end

/-- Whether the first bytes of a file hold a zero byte. -/
def isBinary (bytes : ByteArray) : Bool := (bytes.extract 0 1024).toList.contains 0

/-- The extension of a path as it is counted: with its dot and in lower case. -/
def extensionKey (path : String) : String :=
  match Path.extension? path with
  | some extension => "." ++ Text.asciiLower extension
  | none => ""

def tooLarge (limit : Nat) (path : String) : Warning :=
  ⟨"file_too_large", "Skipped file larger than " ++ toString limit ++ " bytes", path, none⟩

def binary (path : String) : Warning := ⟨"binary_file", "Skipped binary file", path, none⟩

/-- A result with a file counted but not looked at further. -/
def skip (result : ScanResult) (path : String) (warning : Warning) : ScanResult :=
  { result with skipped := result.skipped ++ [path], warnings := result.warnings ++ [warning] }

/-- The language of a file that patterns ask for, if it is a source. -/
def sourceLanguage? (filter : PathFilter) (path : String) : Option Language :=
  if filter.excluded path || !filter.included path then none else Language.ofPath? path

/-- Takes one more file into account. -/
def add (filter : PathFilter) (maxFileSize : Nat) (result : ScanResult) (found : Found) :
    ScanResult :=
  let result := { result with
    totalFiles := result.totalFiles + 1
    totalBytes := result.totalBytes + found.bytes.size }
  if maxFileSize < found.bytes.size then skip result found.path (tooLarge maxFileSize found.path)
  else if isBinary found.bytes then skip result found.path (binary found.path)
  else
    let key := extensionKey found.path
    { result with
      extensionCounts := result.extensionCounts.insert key (result.extensionCounts.getD key 0 + 1)
      sources := match sourceLanguage? filter found.path with
        | some language => result.sources ++ [(found.path, language)]
        | none => result.sources }

/-- Whether enough source files were found. -/
def isFull (maxFiles : Option Nat) (result : ScanResult) : Bool :=
  maxFiles.any (· ≤ result.sources.length)

/-- Takes files into account until there are enough sources. -/
def collect (filter : PathFilter) (maxFileSize : Nat) (maxFiles : Option Nat) :
    ScanResult → List Found → ScanResult
  | result, [] => result
  | result, found :: rest =>
    if isFull maxFiles result then result
    else collect filter maxFileSize maxFiles (add filter maxFileSize result found) rest

/-- The scan of a directory tree. -/
def ofTree (filter : PathFilter) (maxFileSize : Nat) (maxFiles : Option Nat) (tree : FileTree) :
    ScanResult :=
  collect filter maxFileSize maxFiles {} (filesOf filter [] tree)

end Scan

/-- Scans the directory at a path. A directory that cannot be read counts as empty. -/
def scanRepository (disk : Disk) (root : String) (config : AtlasConfig) :
    Except AtlasError ScanResult := do
  let filter ← config.filter
  return Scan.ofTree filter config.maxFileSize config.maxFiles
    ((disk.find? root).getD (.directory []))

end SourceAtlas
