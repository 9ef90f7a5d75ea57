/- Indexing a repository: a stored index is used again while its signature fits. -/
import SourceAtlas.Graph.Build
import SourceAtlas.Index.Signature
import SourceAtlas.Reading
import SourceAtlas.Store

namespace SourceAtlas

/-- What is known about a repository before its graph is built. -/
structure IndexInputs where
  repoId : String
  rootPath : String
  commit : Option String
  signature : String
  scan : ScanResult
  /-- The warnings of the reader. -/
  warnings : List Warning

namespace IndexInputs

/-- The warnings of the scan and then those of the reader. -/
def allWarnings (inputs : IndexInputs) : List Warning := inputs.scan.warnings ++ inputs.warnings

def stats (inputs : IndexInputs) (graph : GraphResult) : TextMap UInt64 :=
  let scan := inputs.scan
  let counts : List (String × Nat) :=
    [("total_files", scan.totalFiles), ("total_bytes", scan.totalBytes),
     ("source_files", scan.sources.length)]
    ++ Language.all.map (fun language =>
      (language.name ++ "_files", (scan.filesIn language).length))
    ++ [("skipped_files", scan.skipped.length), ("nodes", graph.nodes.size),
        ("edges", graph.edges.length), ("warnings", inputs.allWarnings.length)]
  counts.foldl (fun stats (name, count) => stats.insert name (UInt64.ofNat count)) ∅

/-- The index of a repository made at some time. -/
def index (inputs : IndexInputs) (graph : GraphResult) (now : Float) : RepoIndex :=
  { repoId := inputs.repoId
    rootPath := inputs.rootPath
    commit := inputs.commit
    nodes := graph.nodes
    edges := graph.edges
    toc := graph.toc
    warnings := inputs.allWarnings
    stats := inputs.stats graph
    contentSignature := some inputs.signature
    generatedAt := now }

end IndexInputs

inductive IndexPhase where
  | scanning
  | parsing
  | building
  | storing
deriving DecidableEq, Repr

def IndexPhase.name : IndexPhase → String
  | .scanning => "scanning"
  | .parsing => "parsing"
  | .building => "building"
  | .storing => "storing"

/-- How far indexing has come. -/
structure IndexProgress where
  phase : IndexPhase
  current : Nat := 0
  total : Nat := 0
deriving DecidableEq, Repr

structure IndexOutcome where
  index : RepoIndex
  fromCache : Bool
  /-- What was reported on the way. -/
  progress : List IndexProgress

/-- What the caller of an indexing run asks for. -/
structure IndexRequest where
  root : String
  config : AtlasConfig := {}
  commit : Option String := none
  /-- Build a new index in any case. -/
  force : Bool := false

/-- The stored index, if it may be used again for a signature. -/
def IndexRequest.reusable? (request : IndexRequest) (disk : Disk) (signature : String) :
    Option RepoIndex :=
  if request.force then none
  else (Store.loadIndex? disk request.root).filter fun index =>
    index.contentSignature = some signature

/-- Reads the sources of a scan, builds their index and stores it. Gives the disk afterwards. -/
def IndexRequest.build (request : IndexRequest) (parser : Parser) (now : Float) (disk : Disk)
    (scan : ScanResult) (signature : String) : Disk × Except AtlasError IndexOutcome :=
  let sources := scan.sourceFiles
  let reading := Reading.ofFiles parser disk request.root sources
  let inputs : IndexInputs :=
    { repoId := Store.repoId disk request.root
      rootPath := request.root
      commit := request.commit
      signature
      scan
      warnings := reading.warnings }
  let progress : List IndexProgress :=
    [{ phase := .scanning }, { phase := .parsing, total := sources.length },
     { phase := .building, current := reading.files.length, total := sources.length },
     { phase := .storing }]
  match buildGraph reading.files with
  | .error fault => (disk, .error (.missingEndpoint fault))
  | .ok graph =>
    let index := inputs.index graph now
    match Store.saveIndex disk request.root index with
    | (disk, .ok ()) => (disk, .ok ⟨index, false, progress⟩)
    | (disk, .error error) => (disk, .error error)

/-- Scans a repository, and uses its stored index again if nothing has changed or builds a
new one. Gives the disk afterwards. -/
def IndexRequest.run (request : IndexRequest) (parser : Parser) (now : Float) (disk : Disk) :
    Disk × Except AtlasError IndexOutcome :=
  match scanRepository disk request.root request.config with
  | .error error => (disk, .error error)
  | .ok scan =>
    let signature := Signature.ofScan disk request.root request.commit scan request.config.signature
    match request.reusable? disk signature with
    | some index => (disk, .ok ⟨index, true, [{ phase := .scanning }]⟩)
    | none => request.build parser now disk scan signature

end SourceAtlas
