/- Threads: walks through the calls of an index that always take the best step not yet taken. -/
import SourceAtlas.Story.CallGraph

namespace SourceAtlas

inductive SceneRole where
  | entry
  | step
deriving DecidableEq, Repr

def SceneRole.name : SceneRole → String
  | .entry => "entry"
  | .step => "step"

/-- One station of a thread. Every station but the first has the confidence of the call to it. -/
structure Scene where
  id : String
  name : String
  kind : NodeKind
  filePath : String
  line : UInt64
  role : SceneRole
  confidence : Option Confidence
deriving DecidableEq, Repr

def Scene.ofNode (node : SymbolNode) (role : SceneRole) (confidence : Option Confidence) :
    Scene where
  id := node.id
  name := node.name
  kind := node.kind
  filePath := node.filePath?.getD ""
  line := node.startLine
  role := role
  confidence := confidence

/-- The bounds of threads. -/
structure StoryConfig where
  maxDepth : Nat := 5
  maxScenes : Nat := 12
  maxBranches : Nat := 2
deriving DecidableEq, Repr

namespace Thread

/-- The steps after the current node: at most `depth` of them, and none once `scenes` scenes
are reached. A forced first step is taken without a look at the ranking. -/
def steps (index : RepoIndex) (maxScenes : Nat) :
    (depth scenes : Nat) → (visited : List String) → (current : String) →
      (forced : Option (String × Confidence)) → List Scene
  | 0, _, _, _, _ => []
  | depth + 1, scenes, visited, current, forced =>
    if maxScenes ≤ scenes then []
    else
      let next := forced.or ((CallGraph.rankedTargets index current).find? fun (id, _) =>
        id ∉ visited)
      match next with
      | none => []
      | some (id, confidence) =>
        match index.nodes[id]? with
        | none => []
        | some node =>
          .ofNode node .step (some confidence) ::
            steps index maxScenes depth (scenes + 1) (id :: visited) id none

/-- The thread from an entry, with its first step possibly forced; none from an unknown entry. -/
def walk (index : RepoIndex) (config : StoryConfig) (entry : String)
    (forced : Option (String × Confidence)) : List Scene :=
  match index.nodes[entry]? with
  | none => []
  | some node =>
    .ofNode node .entry none :: steps index config.maxScenes config.maxDepth 1 [node.id]
      node.id forced

/-- The first steps of the branches: the targets of the entry after the best one. -/
def alternatives (index : RepoIndex) (config : StoryConfig) (entry : String) :
    List (String × Confidence) :=
  (((CallGraph.rankedTargets index entry).filter fun (id, _) => id ≠ entry).drop 1).take
    config.maxBranches

/-- The main thread, and a branch for each alternative first step that leads anywhere. -/
def all (index : RepoIndex) (config : StoryConfig) (entry : String) : List (List Scene) :=
  let main := walk index config entry none
  if main.isEmpty then []
  else
    let branches := (alternatives index config entry).map fun first =>
      walk index config entry (some first)
    main :: branches.filter fun branch => 1 < branch.length

end Thread

end SourceAtlas
