/- The calls of an index, and the ranking of what a symbol calls. -/
import SourceAtlas.Index.Basic
import SourceAtlas.Path
import SourceAtlas.Text.Blank

namespace SourceAtlas

/-- Whether a node tells little about a request: test, helper and utility code, and all that
is no function, method or class. Letter case of ASCII does not matter; no other letter turns
into one of the names looked for. -/
def isLowSignal (node : SymbolNode) : Bool :=
  match node.kind with
  | .function | .method | .class =>
    match node.filePath? with
    | none => false
    | some path =>
      let path := Text.asciiLower (Text.replaceChar '\\' '/' path)
      let padded := '/' :: path.toList ++ ['/']
      ["utils.py", "helpers.py"].contains (Path.basename path) ||
        ["/tests/", "/test/", "/utils/", "/helpers/"].any fun segment =>
          Text.occursIn segment.toList padded
  | _ => true

namespace CallGraph

/-- The calls edges of an index. -/
def calls (index : RepoIndex) : List GraphEdge :=
  index.edges.filter fun edge => edge.kind == .calls

def outCalls (calls : List GraphEdge) (id : String) : Nat :=
  calls.countP fun edge => edge.source == id

def inCalls (calls : List GraphEdge) (id : String) : Nat :=
  calls.countP fun edge => edge.target == id

/-- How much a node counts in a story: calls made and received, documentation, and the kind
of code. The terms are added in this order. -/
def score (index : RepoIndex) (id : String) : Float :=
  match index.nodes[id]? with
  | none => 0.0
  | some node =>
    let calls := calls index
    let score := 2.0 * (outCalls calls id).toFloat + 1.0 * (inCalls calls id).toFloat
    let score := if Text.trim node.summary = "" then score else score + 1.5
    let score := if node.kind = .class then score + 0.5 else score
    if isLowSignal node then score - 2.0 else score

def confidenceWeight : Confidence → Float
  | .high => 1.0
  | .medium => 0.7
  | .low => 0.4

/-- The rank of a call target as seen from a caller. A call into another file counts more, and
code of low signal loses a second time. -/
def rank (index : RepoIndex) (caller target : SymbolNode) (confidence : Confidence) : Float :=
  let rank := score index target.id + confidenceWeight confidence
  let rank := if target.filePath? = caller.filePath? then rank else rank + 0.8
  if isLowSignal target then rank - 2.0 else rank

/-- The place of a double in the total order of all doubles. -/
def orderKey (value : Float) : Int :=
  let bits := value.toBits.toNat
  if bits < 0x8000000000000000 then (bits : Int) else 0x7FFFFFFFFFFFFFFF - (bits : Int)

/-- A call target with what decides its place. -/
structure Candidate where
  id : String
  confidence : Confidence
  rank : Float
  name : String
  path : String

/-- Candidates from the best to the worst: by rank, then by name, path and id. -/
def Candidate.order : Candidate → Candidate → Ordering :=
  compareLex (compareOn fun candidate => -orderKey candidate.rank)
    (compareLex (compareOn Candidate.name)
      (compareLex (compareOn Candidate.path) (compareOn Candidate.id)))

/-- The targets in the repository that a node calls, each with the strongest confidence of
the calls to it. -/
def targets (index : RepoIndex) (id : String) : TextMap Confidence :=
  let isTarget (target : String) : Bool := (index.nodes[target]?).any fun node => !node.isExternal
  ((calls index).filter fun edge => edge.source == id && isTarget edge.target).foldl
    (fun map edge =>
      map.insert edge.target (match map[edge.target]? with
        | some known => known.max edge.confidence
        | none => edge.confidence))
    ∅

/-- The candidates for the next step from a node, best first. -/
def candidates (index : RepoIndex) (id : String) : List Candidate :=
  match index.nodes[id]? with
  | none => []
  | some caller =>
    let found := (targets index id).toList.filterMap fun (target, confidence) =>
      index.nodes[target]?.map fun node =>
        { id := target
          confidence
          rank := rank index caller node confidence
          name := node.name
          path := node.filePath?.getD "" : Candidate }
    found.mergeSort fun a b => (a.order b).isLE

/-- What a node calls in the repository, best first. -/
def rankedTargets (index : RepoIndex) (id : String) : List (String × Confidence) :=
  (candidates index id).map fun candidate => (candidate.id, candidate.confidence)

end CallGraph

end SourceAtlas
