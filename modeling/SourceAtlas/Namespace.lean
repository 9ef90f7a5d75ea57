/- Dotted module names of source files, made unique across a repository. -/
import SourceAtlas.Language
import SourceAtlas.TextMap

namespace SourceAtlas.Namespace

/-- The file stem that stands for its whole directory. -/
def indexStem : Family → Option String
  | .python => some "__init__"
  | .javaScript => some "index"
  | .swift => none

/-- A dotted name without a last part that stands for the directory. -/
def dropIndex (stem : String) (dotted : String) : String :=
  if dotted = stem then ""
  else (Text.dropEnd? ("." ++ stem) dotted).getD dotted

/-- The path of a source file without its extension; any other path unchanged. -/
def stemOf (path : String) : String :=
  match Language.ofPath? path, Text.cutLast? '.' path with
  | some _, some (stem, _) => stem
  | _, _ => path

/-- The dotted module name of a file: directories and stem, with index files
standing for their directory. -/
def moduleOf (path : String) : String :=
  let normalized := Path.normalize path
  let dotted := Text.replaceChar '/' '.' (stemOf normalized)
  let bare :=
    match (Language.ofPath? normalized).bind fun language => indexStem language.family with
    | some stem => dropIndex stem dotted
    | none => dotted
  Text.trimWhere (· = '.') bare

/-- One file's claim to a dotted module name. -/
structure Claim where
  family : Option Family
  /-- False for a package's own file, which comes before a module of the same name. -/
  isModuleFile : Bool
  path : String
deriving DecidableEq, Repr

/-- Files of an unknown language come after every family. -/
def Claim.rank (claim : Claim) : Nat :=
  match claim.family with
  | some family => family.rank
  | none => Family.all.length

/-- Claims in order of precedence: family, package before module, then path. -/
def Claim.order : Claim → Claim → Ordering :=
  compareLex (compareOn Claim.rank)
    (compareLex (compareOn fun claim => claim.isModuleFile.toNat) (compareOn Claim.path))

def Claim.ofPath (path : String) : Claim :=
  let normalized := Path.normalize path
  let family := (Language.ofPath? normalized).map Language.family
  { family
    isModuleFile := !(family == some .python && Path.basename normalized == "__init__.py")
    path }

/-- The module name that a claim is about. -/
def Claim.module (claim : Claim) : String :=
  moduleOf (Path.normalize claim.path)

/-- The name of a file that does not own its module name: its whole path, dotted. -/
def fullName (path : String) : String :=
  Text.replaceChar '/' '.' (Path.normalize path)

/-- The names given to the claimants of one module name, in order of precedence:
the first keeps the bare name and the others take their full names. -/
def assign (module : String) (claims : List Claim) : List (String × String) :=
  match claims.mergeSort fun a b => (a.order b).isLE with
  | [] => []
  | owner :: others =>
    (owner.path, module) :: others.map fun claim => (claim.path, fullName claim.path)

/-- The module namespace of every file, by path as given. -/
def ofPaths (paths : List String) : TextMap String :=
  let claims := TextMap.groupBy Claim.module (paths.map Claim.ofPath)
  (claims.toList.flatMap fun (module, group) => assign module group).foldl
    (fun map (path, name) => map.insert path name) ∅

end SourceAtlas.Namespace
