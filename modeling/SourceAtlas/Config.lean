/- What to read of a repository and how much to tell about it. -/
import SourceAtlas.Error
import SourceAtlas.Glob.Match
import SourceAtlas.Glob.Reading
import SourceAtlas.Snippet
import SourceAtlas.Story.Thread

namespace SourceAtlas

/-- What decides whether a stored index is still good. -/
inductive SignatureMode where
  /-- The commit, the counts of files and bytes, and the mix of extensions. -/
  | fingerprint
  /-- In addition the bytes of every source file. -/
  | content
deriving DecidableEq, Repr

def SignatureMode.name : SignatureMode → String
  | .fingerprint => "fingerprint"
  | .content => "content"

def SignatureMode.all : List SignatureMode := [.fingerprint, .content]

structure AtlasConfig where
  version : Int := 1
  includePatterns : List String :=
    ["**/*.py", "**/*.js", "**/*.mjs", "**/*.cjs", "**/*.jsx", "**/*.ts", "**/*.mts", "**/*.cts",
     "**/*.tsx", "**/*.swift"]
  excludePatterns : List String :=
    ["**/*.min.js", "**/*.bundle.js", "**/*.d.ts", "**/.next/**", "**/.nuxt/**",
     "**/.svelte-kit/**", "**/.turbo/**", "**/.cache/**", "**/coverage/**", "**/htmlcov/**",
     "**/.pytest_cache/**", "**/.mypy_cache/**", "**/.ruff_cache/**", "**/.tox/**",
     "**/*.egg-info/**", "**/xcuserdata/**", "**/SourcePackages/**"]
  /-- Larger files are skipped; in bytes. -/
  maxFileSize : Nat := 524288
  /-- The number of source files to stop at, if any. -/
  maxFiles : Option Nat := some 5000
  signature : SignatureMode := .fingerprint
  story : StoryConfig := {}
  snippet : SnippetConfig := {}
deriving DecidableEq, Repr

/-- The files that patterns ask for. -/
structure PathFilter where
  included : String → Bool
  excluded : String → Bool

/-- Whether one of several patterns matches a path. -/
def Glob.anyMatches (patterns : List (List Glob.Part)) (path : String) : Bool :=
  patterns.any fun parts => Glob.matchesPath parts path

/-- The patterns that some texts describe; the first faulty text is reported, or else the first
pattern that is nested too deep. -/
def Glob.parseAll (texts : List String) : Except AtlasError (List (List Glob.Part)) := do
  let patterns ← texts.mapM fun text => (Glob.parse text).mapError (AtlasError.badPattern text)
  match Glob.tooDeep? patterns with
  | some depth => .error (.deepPattern depth)
  | none => .ok patterns

/-- The filter of a configuration. Patterns to include are read before those to exclude. -/
def AtlasConfig.filter (config : AtlasConfig) : Except AtlasError PathFilter := do
  let included ← Glob.parseAll config.includePatterns
  let excluded ← Glob.parseAll config.excludePatterns
  return ⟨Glob.anyMatches included, Glob.anyMatches excluded⟩

end SourceAtlas
