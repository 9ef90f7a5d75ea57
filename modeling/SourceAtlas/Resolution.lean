/- The outcome of resolving a reference, and the order in which candidates count. -/
import SourceAtlas.Symbol

namespace SourceAtlas

/-- Where a reference leads: a node of the graph, or a name outside the repository. -/
inductive Target where
  | node (id : String)
  | external (name : String)
deriving DecidableEq, Repr

structure Resolution where
  target : Target
  confidence : Confidence
deriving DecidableEq, Repr

namespace Resolution

/-- A reference that nothing in the repository answers. -/
def external (name : String) : Resolution := ⟨.external name, .low⟩

/-- A candidate of a given strength, if there is one. -/
def tier (confidence : Confidence) (id : Option String) : Option (Confidence × String) :=
  id.map fun id => (confidence, id)

/-- The first candidate that exists, tiers being listed strongest first; with none, the
reference is external under the given name. -/
def ofTiers (tiers : List (Option (Confidence × String))) (fallback : String) : Resolution :=
  match tiers.findSome? id with
  | some (confidence, id) => ⟨.node id, confidence⟩
  | none => external fallback

/-- The node a reference leads to, when it stays inside the repository. -/
def nodeId? (resolution : Resolution) : Option String :=
  match resolution.target with
  | .node id => some id
  | .external _ => none

end Resolution

end SourceAtlas
