/- Commands run on a disk, and what is printed about them. -/
import SourceAtlas.Codec.Answer
import SourceAtlas.CommandLine.Help
import SourceAtlas.Index.Session
import SourceAtlas.View.Collapse

namespace SourceAtlas.CommandLine

/-- What a command answers. -/
inductive Reply where
  | version
  | help (command : Option String)
  /-- A short account of an indexing run on a directory. -/
  | account (root : String) (outcome : IndexOutcome)
  | index (index : RepoIndex)
  | value (json : Json)
  | contents (entries : List TocEntry)

/-- How a run ends. -/
inductive Ending where
  | replied (reply : Reply)
  | refused (error : AtlasError)
  /-- The arguments are not understood. -/
  | misused
  /-- The log file cannot be opened. -/
  | unlogged

/-- The exit code of a refusal. Faults of the program itself have a code of their own. -/
def exitCodeOf : AtlasError → UInt8
  | .overflow | .missingEndpoint _ => 101
  | error => if error.isNotFound then 2 else 1

def Ending.exitCode : Ending → UInt8
  | .replied _ => 0
  | .refused error => exitCodeOf error
  | .misused => 2
  | .unlogged => 101

def accountText (root : String) (outcome : IndexOutcome) (milliseconds : String) : String :=
  let stat (name : String) : String := toString (outcome.index.stats.getD name 0).toNat
  Text.join ""
    [if outcome.fromCache then "Reused " else "Indexed ", root, " (", milliseconds, " ms)\n",
     "  files: ", stat "total_files", "  sources: ", stat "source_files",
     "  skipped: ", stat "skipped_files", "\n",
     "  nodes: ", stat "nodes", "  edges: ", stat "edges", "  warnings: ", stat "warnings", "\n"]

def contentsLine (entry : TocEntry) : String :=
  padded 24 entry.id ++ " " ++ padded 32 entry.title ++ " " ++ entry.summary ++ "\n"

/-- The printed form of a reply, for a run that took some time. -/
def Reply.text (milliseconds : String) : Reply → String
  | .version => "gitreader 0.3.0\n"
  | .help command => (helpPage command).text
  | .account root outcome => accountText root outcome milliseconds
  | .index stored => stored.toText ++ "\n"
  | .value json => json.pretty ++ "\n"
  | .contents entries => Text.join "" (entries.map contentsLine)

/-- Makes the log file. One without a directory in its path, or whose directory cannot be made, is
not written. -/
def openLog (disk : Disk) (path : String) : Disk × Except FileError Unit :=
  match Path.fileName? path with
  | none => (disk, .ok ())
  | some name =>
    let directory := Path.directoryOf path
    if directory = "" then (disk, .ok ())
    else match disk.makeDirectories directory with
      | (disk, .error _) => (disk, .ok ())
      | (disk, .ok ()) =>
        match disk.touch (Disk.below directory name) with
        | .ok disk => (disk, .ok ())
        | .error fault => (disk, .error fault)

/-- What a run needs besides the disk: a parser and the time. -/
structure World where
  parser : Parser
  /-- Seconds since the start of 1970. -/
  now : Float

/-- Indexes a repository and answers from the outcome. The index is stored even when there is no
answer. -/
def World.withIndex (world : World) (disk : Disk) (request : IndexRequest)
    (answer : Disk → IndexOutcome → Except AtlasError Reply) : Disk × Except AtlasError Reply :=
  match request.run world.parser world.now disk with
  | (disk, .error error) => (disk, .error error)
  | (disk, .ok outcome) => (disk, answer disk outcome)

/-- Indexes a repository with its stored configuration, perhaps changed, and answers from the
outcome. -/
def World.withConfig (world : World) (disk : Disk) (path : Option String)
    (adjust : AtlasConfig → Except AtlasError AtlasConfig) (commit : Option String) (force : Bool)
    (answer : String → AtlasConfig → Disk → IndexOutcome → Except AtlasError Reply) :
    Disk × Except AtlasError Reply :=
  let root := path.getD (Disk.pathOf disk.base)
  match Store.loadConfig disk root >>= adjust with
  | .error error => (disk, .error error)
  | .ok config => world.withIndex disk { root, config, commit, force } (answer root config)

/-- The number of lines that an excerpt may have, if one was given. -/
def limitLines (maxLines : Option Nat) (config : AtlasConfig) : Except AtlasError AtlasConfig :=
  match maxLines with
  | none => .ok config
  | some 0 => .error .emptyExcerpt
  | some n => .ok { config with snippet := { config.snippet with maxLines := n } }

def viewReply (scope : Scope) (collapse : Bool) (index : RepoIndex) : Reply :=
  let view := GraphView.ofScope index scope
  .value (if collapse then (collapseExternals view).toJson else view.toJson)

def arcsReply (arcs : List StoryArc) : Option String → Except AtlasError Reply
  | some id => do return .value (← StoryArc.find arcs id).toJson
  | none => .ok (.value (.array (arcs.map StoryArc.toJson)))

/-- Runs a command. -/
def Command.run (world : World) (disk : Disk) : Command → Disk × Except AtlasError Reply
  | .index path force commit json =>
    world.withConfig disk path .ok commit force fun root _ _ outcome =>
      .ok (if json then .index outcome.index else .account root outcome)
  | .graph path scope collapse =>
    match Scope.parse scope with
    | .error error => (disk, .error error)
    | .ok scope =>
      world.withConfig disk path .ok none false fun _ _ _ outcome =>
        .ok (viewReply scope collapse outcome.index)
  | .arcs path id =>
    world.withConfig disk path .ok none false fun _ config disk outcome =>
      let reading := outcome.index.reread world.parser disk .python
      arcsReply (StoryArc.ofFiles outcome.index reading.files config.story) id
  | .symbol id path part maxLines =>
    match SnippetSection.parse part with
    | .error error => (disk, .error error)
    | .ok part =>
      world.withConfig disk path (limitLines maxLines) none false fun _ config disk outcome => do
        let snippet ←
          symbolSnippet outcome.index (outcome.index.readText? disk) id part config.snippet
        return .value snippet.toJson
  | .toc path =>
    world.withConfig disk path .ok none false fun _ _ _ outcome => .ok (.contents outcome.index.toc)

def Request.run (world : World) (disk : Disk) (request : Request) : Disk × Ending :=
  let logged := match request.logFile with
    | some path => openLog disk path
    | none => (disk, .ok ())
  match logged with
  | (disk, .error _) => (disk, .unlogged)
  | (disk, .ok ()) =>
    match request.command.run world disk with
    | (disk, .ok reply) => (disk, .replied reply)
    | (disk, .error error) => (disk, .refused error)

/-- Runs what a list of arguments asks for. -/
def run (world : World) (disk : Disk) (arguments : List String) : Disk × Ending :=
  match parse arguments with
  | .ok request => request.run world disk
  | .error .version => (disk, .replied .version)
  | .error (.help command) => (disk, .replied (.help command))
  | .error .misuse => (disk, .misused)

end SourceAtlas.CommandLine
