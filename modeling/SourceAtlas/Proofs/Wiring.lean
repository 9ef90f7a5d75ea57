/- What each operation on a graph under construction keeps: nodes stay, and edges join what
exists. -/
import SourceAtlas.Graph.Basic
import SourceAtlas.Proofs.Tables
import SourceAtlas.Text.Affix

namespace SourceAtlas

namespace Identifier

inductive Form where
  | file : Form
  | symbol : Form
  | external : Form
  | blueprint : Form
deriving DecidableEq

/-- What the identifiers of a form start with. -/
def Form.lead : Form → String
  | .file => "file:"
  | .symbol => "symbol:"
  | .external => "external:"
  | .blueprint => "blueprint:"

/-- The ids of names outside the repository, by their form. -/
def isExternal (id : String) : Bool := Text.startsWith id "external:"

def isBlueprint (id : String) : Bool := Text.startsWith id "blueprint:"

def isFile (id : String) : Bool := Text.startsWith id "file:"

/-- No form starts like another, so an identifier has the form it was made in and no other. -/
theorem startsWith_lead (given asked : Form) (name : String) :
    Text.startsWith (given.lead ++ name) asked.lead = decide (given = asked) := by
  cases given <;> cases asked <;> simp [Form.lead, Text.startsWith, List.isPrefixOf]

end Identifier

/-- A node of the repository: its kind and the form of its id agree on that. -/
def SymbolNode.Internal (node : SymbolNode) : Prop :=
  node.kind ≠ .external ∧ Identifier.isExternal node.id = false

theorem SymbolNode.Internal.form {node : SymbolNode} (internal : node.Internal) :
    node.kind = .external ↔ Identifier.isExternal node.id = true := by
  simp [internal.1, internal.2]

namespace CodeGraph

variable {graph before middle after : CodeGraph}

/-- There is a node with this id, and it belongs to the repository. -/
def Inside (graph : CodeGraph) (id : String) : Prop :=
  ∃ node, graph.nodes[id]? = some node ∧ node.kind ≠ .external

/-- An edge joins a node of the repository to a node that is external exactly at low confidence. -/
def Joins (graph : CodeGraph) (edge : GraphEdge) : Prop :=
  graph.Inside edge.source ∧
    ∃ node, graph.nodes[edge.target]? = some node ∧ (edge.confidence = .low ↔ node.kind = .external)

/-- Nodes are stored under their ids, ids show what is external, and edges join what exists. -/
structure Wired (graph : CodeGraph) : Prop where
  keyed : ∀ {id : String} {node : SymbolNode}, graph.nodes[id]? = some node → node.id = id
  labelled : ∀ {id : String} {node : SymbolNode}, graph.nodes[id]? = some node →
    (node.kind = .external ↔ Identifier.isExternal id = true)
  joined : ∀ edge ∈ graph.edges, graph.Joins edge

/-- A wired graph in which every external node is there for an edge that leads to it. -/
structure Sound (graph : CodeGraph) : Prop extends graph.Wired where
  reached : ∀ {id : String} {node : SymbolNode},
    graph.nodes[id]? = some node → node.kind = .external →
    ∃ edge ∈ graph.edges, edge.target = id

/-- Every node stays, and so does whether it is external. -/
def Grows (before after : CodeGraph) : Prop :=
  ∀ (id : String) (node : SymbolNode), before.nodes[id]? = some node →
    ∃ later, after.nodes[id]? = some later ∧ (later.kind = .external ↔ node.kind = .external)

theorem Grows.refl (graph : CodeGraph) : Grows graph graph :=
  fun _ node found => ⟨node, found, Iff.rfl⟩

theorem Grows.trans (first : Grows before middle) (second : Grows middle after) :
    Grows before after := by
  intro id node found
  obtain ⟨next, known, same⟩ := first id node found
  obtain ⟨last, kept, also⟩ := second id next known
  exact ⟨last, kept, also.trans same⟩

theorem Grows.inside (growth : Grows before after) {id : String} (h : before.Inside id) :
    after.Inside id := by
  obtain ⟨node, found, internal⟩ := h
  obtain ⟨later, kept, same⟩ := growth _ node found
  exact ⟨later, kept, fun external => internal (same.mp external)⟩

theorem Grows.joins (growth : Grows before after) {edge : GraphEdge} (h : before.Joins edge) :
    after.Joins edge := by
  obtain ⟨source, node, found, tag⟩ := h
  obtain ⟨later, kept, same⟩ := growth _ node found
  exact ⟨growth.inside source, later, kept, tag.trans same.symm⟩

theorem sound_empty : Sound {} := by
  refine ⟨⟨?_, ?_, ?_⟩, ?_⟩ <;> intros <;> simp_all

theorem Inside.contains {id : String} (h : graph.Inside id) : graph.contains id = true := by
  obtain ⟨node, found, _⟩ := h
  simp [CodeGraph.contains, found]

@[simp] theorem nodes_insert (graph : CodeGraph) (node : SymbolNode) (id : String) :
    (graph.insert node).nodes[id]? = if node.id = id then some node else graph.nodes[id]? :=
  TextMap.get?_put _ _ _ _

theorem insert_inside {node : SymbolNode} (internal : node.Internal) :
    (graph.insert node).Inside node.id :=
  ⟨node, by simp, internal.1⟩

/-- A node may replace another that shows the same side by its id. -/
theorem Wired.insert_grows (h : graph.Wired) {node : SymbolNode}
    (form : node.kind = .external ↔ Identifier.isExternal node.id = true) :
    Grows graph (graph.insert node) := by
  intro id old found
  rw [nodes_insert]
  split
  · next same =>
      refine ⟨node, rfl, form.trans ?_⟩
      rw [same]
      exact (h.labelled found).symm
  · exact ⟨old, found, Iff.rfl⟩

theorem Wired.insert (h : graph.Wired) {node : SymbolNode}
    (form : node.kind = .external ↔ Identifier.isExternal node.id = true) :
    (graph.insert node).Wired := by
  refine ⟨?_, ?_, fun edge member => (h.insert_grows form).joins (h.joined edge member)⟩
  · intro id found stored
    rw [nodes_insert] at stored
    split at stored
    · next same =>
        cases stored
        exact same
    · exact h.keyed stored
  · intro id found stored
    rw [nodes_insert] at stored
    split at stored
    · next same =>
        cases stored
        rwa [← same]
    · exact h.labelled stored

theorem Sound.insert (h : graph.Sound) {node : SymbolNode} (internal : node.Internal) :
    (graph.insert node).Sound := by
  refine ⟨h.toWired.insert internal.form, ?_⟩
  intro id found stored external
  rw [nodes_insert] at stored
  split at stored
  · cases stored
    exact absurd external internal.1
  · exact h.reached stored external

theorem Wired.ensureExternal (h : graph.Wired) (name : String) :
    (graph.ensureExternal name).Wired ∧ Grows graph (graph.ensureExternal name) := by
  have form : (externalNode name).kind = .external ↔
      Identifier.isExternal (externalNode name).id = true :=
    iff_of_true rfl (Identifier.startsWith_lead .external .external name)
  unfold CodeGraph.ensureExternal
  split
  · exact ⟨h, .refl graph⟩
  · exact ⟨h.insert form, h.insert_grows form⟩

/-- No external node appears but the one that was asked for. -/
theorem ensureExternal_found {name id : String} {node : SymbolNode}
    (found : (graph.ensureExternal name).nodes[id]? = some node) :
    graph.nodes[id]? = some node ∨ id = Identifier.external name := by
  unfold CodeGraph.ensureExternal at found
  split at found
  · exact .inl found
  · rw [nodes_insert] at found
    split at found
    · next same => exact .inr same.symm
    · exact .inl found

theorem ensureExternal_contains (graph : CodeGraph) (name : String) :
    ∃ node, (graph.ensureExternal name).nodes[Identifier.external name]? = some node := by
  unfold CodeGraph.ensureExternal
  split
  · next known => exact Option.isSome_iff_exists.mp known
  · exact ⟨externalNode name, by simp [externalNode]⟩

@[simp] theorem edges_ensureExternal (graph : CodeGraph) (name : String) :
    (graph.ensureExternal name).edges = graph.edges := by
  unfold CodeGraph.ensureExternal
  split <;> rfl

theorem Joins.connect {edge : GraphEdge} (ends : graph.Joins edge) :
    graph.connect edge = .ok { graph with edges := graph.edges.push edge } := by
  obtain ⟨source, node, found, _⟩ := ends
  have target : graph.contains edge.target = true := by simp [CodeGraph.contains, found]
  simp [CodeGraph.connect, source.contains, target]

theorem Wired.push (h : graph.Wired) {edge : GraphEdge} (ends : graph.Joins edge) :
    Wired { graph with edges := graph.edges.push edge } := by
  refine ⟨h.keyed, h.labelled, ?_⟩
  intro other member
  rcases Array.mem_push.mp member with old | same
  · exact h.joined other old
  · exact same ▸ ends

theorem Sound.push (h : graph.Sound) {edge : GraphEdge} (ends : graph.Joins edge) :
    Sound { graph with edges := graph.edges.push edge } := by
  refine ⟨h.toWired.push ends, ?_⟩
  intro id node found external
  obtain ⟨old, member, target⟩ := h.reached found external
  exact ⟨old, Array.mem_push_of_mem edge member, target⟩

/-- A name outside the repository becomes a node only together with an edge to it. -/
theorem Sound.mention (h : graph.Sound) (edge : GraphEdge) {name : String}
    (source : graph.Inside edge.source) (target : edge.target = Identifier.external name)
    (low : edge.confidence = .low) :
    (graph.ensureExternal name).Joins edge ∧
      Sound { graph.ensureExternal name with
        edges := (graph.ensureExternal name).edges.push edge } := by
  obtain ⟨wired, growth⟩ := h.toWired.ensureExternal name
  obtain ⟨node, found⟩ := graph.ensureExternal_contains name
  have external := (wired.labelled found).mpr (Identifier.startsWith_lead .external .external name)
  have ends : (graph.ensureExternal name).Joins edge :=
    ⟨growth.inside source, node, target ▸ found, iff_of_true low external⟩
  refine ⟨ends, wired.push ends, ?_⟩
  intro id other stored kind
  rcases ensureExternal_found stored with old | same
  · obtain ⟨earlier, member, reaches⟩ := h.reached old kind
    refine ⟨earlier, Array.mem_push_of_mem edge ?_, reaches⟩
    rwa [edges_ensureExternal]
  · exact ⟨edge, Array.mem_push_self, target.trans same.symm⟩

end CodeGraph

end SourceAtlas
