/- What is kept on disk about a repository: its configuration and its index. -/
import SourceAtlas.Codec.Config
import SourceAtlas.Codec.Index
import SourceAtlas.Digest.Sha256
import SourceAtlas.Scan
import SourceAtlas.Text.Utf8

namespace SourceAtlas.Store

def statePath (root : String) : String := Disk.below root Scan.stateDirectory

def configPath (root : String) : String := Disk.below (statePath root) "config.json"

def indexPath (root : String) : String := Disk.below (statePath root) "index.json"

/-- The letters and digits of a name in lower case, with one hyphen between runs of them. -/
def slug (name : String) : String :=
  let step (done : List Char) (c : Char) : List Char :=
    if c.isAlphanum then c.toLower :: done
    else if done.head? = some '-' then done else '-' :: done
  let marked := (name.toList.foldl step []).reverse
  Text.trimWhere (· == '-') (String.ofList marked)

/-- A name for the directory at a path, with some digits that tell equal names apart. -/
def idOfPath (path : String) : String :=
  let name := ((Path.fileName? path).map slug).filter (· ≠ "")
  name.getD "local" ++ "-" ++ String.ofList ((Digest.ofText path).toList.take 12)

/-- The id of a repository. It depends on the real place of its directory. -/
def repoId (disk : Disk) (root : String) : String :=
  match disk.locate root with
  | .ok place => idOfPath (Disk.pathOf place)
  | .error _ => idOfPath root

/-- The text of a file, which has to be well encoded. -/
def readText (disk : Disk) (path : String) : Except AtlasError String :=
  match disk.read path with
  | .error fault => .error (.io fault.message)
  | .ok bytes =>
    match String.fromUTF8? bytes with
    | some text => .ok text
    | none => .error (.io "stream did not contain valid UTF-8")

/-- Writes a text into the directory of the stored state, which is made when missing. -/
def writeText (disk : Disk) (root path text : String) : Disk × Except AtlasError Unit :=
  match disk.makeDirectories (statePath root) with
  | (disk, .error fault) => (disk, .error (.io fault.message))
  | (disk, .ok ()) =>
    match disk.write path text.toUTF8 with
    | .ok disk => (disk, .ok ())
    | .error fault => (disk, .error (.io fault.message))

/-- The configuration of a repository: the default one when none is stored. -/
def loadConfig (disk : Disk) (root : String) : Except AtlasError AtlasConfig :=
  let path := configPath root
  if disk.has path then do
    match AtlasConfig.ofText? (← readText disk path) with
    | none => .error (.malformedConfig path)
    | some config =>
      let _ ← config.filter
      return config
  else .ok {}

def saveConfig (disk : Disk) (root : String) (config : AtlasConfig) :
    Disk × Except AtlasError Unit :=
  writeText disk root (configPath root) config.toText

/-- The stored index of a repository. One that cannot be read counts as missing. -/
def loadIndex? (disk : Disk) (root : String) : Option RepoIndex :=
  match readText disk (indexPath root) with
  | .ok text => RepoIndex.ofText? text
  | .error _ => none

def saveIndex (disk : Disk) (root : String) (index : RepoIndex) : Disk × Except AtlasError Unit :=
  writeText disk root (indexPath root) index.toText

end SourceAtlas.Store
