/- The command line program. It loads the repository that a command is about into a disk of its
own, runs the command there, and writes back what the command has stored. Syntax trees come from
standard input, one JSON record with a language, a text and its tree on each line. -/
import SourceAtlas.Codec.Tree
import SourceAtlas.CommandLine.Run
import Std.Time.DateTime

namespace SourceAtlas.Program

open CommandLine

/-- The directory tree at a path. Of directories that no scan enters only the stored state is
loaded. -/
partial def load (path : String) : IO FileTree := do
  let here ← IO.FS.realPath path
  let entries ← here.readDir
  let mut found : List (String × FileTree) := []
  for entry in entries do
    let name := entry.fileName
    let child := Disk.below path name
    match (← entry.path.symlinkMetadata).type with
    | .dir =>
      let isLoaded := name = Scan.stateDirectory || !Scan.skippedDirectories.contains name
      let tree ← if isLoaded then load child else pure (.directory [])
      found := FileTree.insertEntry name tree found
    | .file => found := FileTree.insertEntry name (.file (← IO.FS.readBinFile child)) found
    | .symlink =>
      try
        let target ← IO.FS.realPath child
        found := FileTree.insertEntry name (.link target.toString) found
      catch _ => pure ()
    | .other => pure ()
  return .directory found

/-- A disk that holds the directory at a path, seen from the working directory. -/
def loadDisk (path : Option String) : IO Disk := do
  let base := (← IO.currentDir).toString
  let start : Disk := { tree := .directory [], base := Path.steps base }
  let start := (start.makeDirectories base).1
  try
    let root := (← IO.FS.realPath (path.getD base)).toString
    let tree ← load root
    return { start with tree := start.tree.put (Path.steps root) tree }
  catch _ => return start

/-- The trees that standard input gives, under their languages and texts. -/
def readTrees : IO Parser := do
  let lines ← (← IO.getStdin).lines
  let trees := lines.toList.filterMap fun line => do
    let fields ← (← Json.parse? line).recordFields? ["language", "text", "tree"]
    let language ← Json.required? fields "language" Json.text?
    let text ← Json.required? fields "text" Json.text?
    let tree ← Json.required? fields "tree" SyntaxTree.ofJson?
    return ((language, text), tree)
  return fun language text => trees.lookup (language.name, text)

/-- The directory that a command is about, if it names one. -/
def target : Command → Option String
  | .index path .. | .graph path .. | .arcs path _ | .symbol _ path .. | .toc path => path

/-- Writes a file back that differs between two disks. -/
def store (before after : Disk) (path : String) : IO Unit := do
  match after.read path with
  | .ok bytes =>
    if (before.read path).toOption.all (fun old => old.toList != bytes.toList) then
      IO.FS.createDirAll (Path.directoryOf path)
      IO.FS.writeBinFile path bytes
  | .error _ => pure ()

/-- Prints how a run ended. -/
def tell (ending : Ending) (milliseconds : Nat) : IO UInt32 := do
  match ending with
  | .replied reply => IO.print (reply.text (toString milliseconds))
  | .refused error => IO.eprintln ("error: " ++ error.message)
  | .misused => IO.eprintln ((helpPage none).text)
  | .unlogged => IO.eprintln "error: the log file cannot be opened"
  return ending.exitCode.toUInt32

def secondsNow : IO Float := do
  let now ← Std.Time.Timestamp.now
  return Float.ofInt now.toMillisecondsSinceUnixEpoch.val / 1000

def run (arguments : List String) : IO UInt32 := do
  let start ← IO.monoMsNow
  match parse arguments with
  | .error _ =>
    tell (CommandLine.run ⟨fun _ _ => none, 0.0⟩ { tree := .directory [] } arguments).2 0
  | .ok request =>
    let path := target request.command
    let before ← loadDisk path
    let world : World := ⟨← readTrees, ← secondsNow⟩
    let (after, ending) := request.run world before
    store before after (Store.indexPath (path.getD (Disk.pathOf before.base)))
    request.logFile.forM (store before after)
    tell ending ((← IO.monoMsNow) - start)

end SourceAtlas.Program

def main (arguments : List String) : IO UInt32 := SourceAtlas.Program.run arguments
