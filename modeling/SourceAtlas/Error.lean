/- The causes for which a request is refused, and their wording. Defects of source files are
warnings and never stop the work. -/
import SourceAtlas.Glob.Nesting
import SourceAtlas.Graph.Basic
import SourceAtlas.Text.Shape

namespace SourceAtlas

inductive AtlasError where
  /-- The disk refused an access, with its reason. -/
  | io (reason : String)
  | symbolNotFound (id : String)
  | arcNotFound (id : String)
  | missingLocation (id : String)
  | sourceUnavailable (path : String)
  /-- The configuration file at a path holds no configuration. -/
  | malformedConfig (path : String)
  | badPattern (pattern : String) (fault : Glob.Fault)
  /-- A pattern is nested too deep. -/
  | deepPattern (depth : Glob.Depth)
  | unknownSection (text : String)
  /-- Excerpts of no lines were asked for. -/
  | emptyExcerpt
  | invalidScope (text : String)
  /-- A line number beyond 64 bits. -/
  | overflow
  | missingEndpoint (fault : MissingEndpoint)
deriving DecidableEq, Repr

namespace AtlasError

def message : AtlasError → String
  | .io reason => "io error: " ++ reason
  | .symbolNotFound id => "symbol not found: " ++ id
  | .arcNotFound id => "story arc not found: " ++ id
  | .missingLocation id => "symbol has no source location: " ++ id
  | .sourceUnavailable path => "source file is empty or unreadable: " ++ path
  | .malformedConfig path => "invalid config: " ++ path
  | .badPattern pattern fault =>
    "invalid config: bad glob " ++ Text.quote pattern ++ ": error parsing glob '" ++ pattern ++
      "': " ++ fault.message
  | .deepPattern depth => "invalid config: " ++ depth.message
  | .unknownSection text => "invalid config: unknown snippet section: " ++ text
  | .emptyExcerpt => "invalid config: --max-lines must be positive"
  | .invalidScope text => "unsupported scope: " ++ text
  | .overflow => "attempt to add with overflow"
  | .missingEndpoint fault => fault.message

/-- Whether the caller asked for something that is not there. -/
def isNotFound : AtlasError → Bool
  | .symbolNotFound _ | .arcNotFound _ | .missingLocation _ => true
  | _ => false

end AtlasError

end SourceAtlas
