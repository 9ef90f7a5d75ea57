/- Step lists and scripts that run to their end from every sound draft, and the rules by which
larger ones are made of smaller ones. -/
import SourceAtlas.Linking.Shared
import SourceAtlas.Proofs.Wiring

namespace SourceAtlas

/-- A sound graph, and tables that know only nodes of the repository that are in it. -/
structure Draft.Sound (draft : Draft) : Prop where
  graph : draft.graph.Sound
  tables : draft.tables.HoldsOnly draft.graph.Inside

/-- Construction went on from a draft without a fault, kept all nodes, and made the given ids. -/
structure Draft.Completed (before : Draft) (after : Progress Draft) (gives : List String) :
    Prop where
  done : after.fault = none
  sound : after.state.Sound
  grows : before.graph.Grows after.state.graph
  given : ∀ id ∈ gives, after.state.graph.Inside id

namespace Draft

variable {draft : Draft} {gives : List String}

theorem Sound.grow (h : draft.Sound) {graph : CodeGraph} (sound : graph.Sound)
    (growth : draft.graph.Grows graph) : Sound { draft with graph } :=
  ⟨sound, h.tables.mono fun _ inside => growth.inside inside⟩

theorem connect_of_joins {edge : GraphEdge} (ends : draft.graph.Joins edge) :
    draft.connect edge =
      ⟨{ draft with graph := { draft.graph with edges := draft.graph.edges.push edge } },
        none⟩ := by
  simp [Draft.connect, ends.connect]

end Draft

/-- Items carried out one after the other, up to the first that fails. -/
def Progress.through {α β : Type} (carry : α → β → Progress α) (start : α) (items : List β) :
    Progress α :=
  items.foldl (fun progress item => progress.andThen carry item) ⟨start, none⟩

theorem Progress.through_append_of_done {α β : Type} {carry : α → β → Progress α} {start : α}
    (first second : List β) (done : (Progress.through carry start first).fault = none) :
    Progress.through carry start (first ++ second) =
      Progress.through carry (Progress.through carry start first).state second := by
  have clean : Progress.through carry start first =
      ⟨(Progress.through carry start first).state, none⟩ := by rw [← done]
  calc Progress.through carry start (first ++ second)
      = second.foldl (fun progress item => progress.andThen carry item)
          (Progress.through carry start first) := List.foldl_append
    _ = Progress.through carry (Progress.through carry start first).state second := by
        rw [clean]
        rfl

/-- From every sound draft in which the known ids are nodes of the repository, the items are
carried out to their end, leave a sound draft, and make the given ids. -/
def Safe {β : Type} (carry : Draft → β → Progress Draft) (known : String → Prop) (items : List β)
    (gives : List String) : Prop :=
  ∀ draft : Draft, draft.Sound → (∀ id, known id → draft.graph.Inside id) →
    draft.Completed (Progress.through carry draft items) gives

namespace Safe

variable {β : Type} {carry : Draft → β → Progress Draft} {known wider : String → Prop}
  {items : List β} {gives : List String}

theorem mono (h : Safe carry known items gives) (sub : ∀ id, known id → wider id) :
    Safe carry wider items gives :=
  fun draft sound inside => h draft sound fun id hid => inside id (sub id hid)

/-- What was made may be forgotten. -/
theorem weaken {fewer : List String} (h : Safe carry known items gives)
    (sub : ∀ id ∈ fewer, id ∈ gives) : Safe carry known items fewer := by
  intro draft sound inside
  have all := h draft sound inside
  exact ⟨all.done, all.sound, all.grows, fun id member => all.given id (sub id member)⟩

theorem nil : Safe carry known [] [] :=
  fun draft sound _ => ⟨rfl, sound, .refl draft.graph, by simp⟩

/-- Later items may rely on what earlier ones made. -/
theorem append {first second : List β} {more : List String} (h : Safe carry known first gives)
    (next : Safe carry (fun id => known id ∨ id ∈ gives) second more) :
    Safe carry known (first ++ second) (gives ++ more) := by
  intro draft sound inside
  have start := h draft sound inside
  have rest := next _ start.sound (by
    rintro id (old | new)
    · exact start.grows.inside (inside id old)
    · exact start.given id new)
  rw [Progress.through_append_of_done first second start.done]
  refine ⟨rest.done, rest.sound, start.grows.trans rest.grows, ?_⟩
  intro id member
  rcases List.mem_append.mp member with early | late
  · exact rest.grows.inside (start.given id early)
  · exact rest.given id late

/-- The members of a list each contribute items of their own. -/
theorem flatMap {α : Type} {list : List α} {part : α → List β} {made : α → List String}
    (h : ∀ member ∈ list, Safe carry known (part member) (made member)) :
    Safe carry known (list.flatMap part) (list.flatMap made) := by
  induction list with
  | nil => exact nil
  | cons head rest ih =>
      simp only [List.flatMap_cons]
      refine append (h head (by simp)) ((ih fun other member => h other (by simp [member])).mono ?_)
      exact fun id hid => .inl hid

theorem flatMap_nil {α : Type} {list : List α} {part : α → List β}
    (h : ∀ member ∈ list, Safe carry known (part member) []) :
    Safe carry known (list.flatMap part) [] :=
  (flatMap h).weaken (by simp)

end Safe

abbrev SafeSteps : (String → Prop) → List Step → List String → Prop := Safe Draft.apply

namespace SafeSteps

variable {known : String → Prop}

theorem declare {node : SymbolNode} (internal : node.Internal) :
    SafeSteps known [.declare node] [node.id] := by
  intro draft sound _
  have growth := sound.graph.toWired.insert_grows internal.form
  refine ⟨rfl, sound.grow (sound.graph.insert internal) growth, growth, ?_⟩
  intro id member
  rw [List.mem_singleton.mp member]
  exact CodeGraph.insert_inside internal

theorem register {entry : Registration} (h : ∀ id ∈ entry.ids, known id) :
    SafeSteps known [.register entry] [] := by
  intro draft sound inside
  refine ⟨rfl, ⟨sound.graph, ?_⟩, .refl draft.graph, by simp⟩
  exact sound.tables.record fun id member => inside id (h id member)

theorem connect (edge : GraphEdge) (source : known edge.source) (target : known edge.target)
    (strong : edge.confidence ≠ .low) : SafeSteps known [.connect edge] [] := by
  intro draft sound inside
  obtain ⟨node, found, internal⟩ := inside _ target
  have ends : draft.graph.Joins edge := ⟨inside _ source, node, found, iff_of_false strong internal⟩
  have ran : Progress.through Draft.apply draft [.connect edge] = draft.connect edge := rfl
  rw [ran, Draft.connect_of_joins ends]
  exact ⟨rfl, ⟨sound.graph.push ends, sound.tables⟩, .refl draft.graph, by simp⟩

/-- A node and the edge to it. -/
theorem contain {container : String} {node : SymbolNode} (hc : known container)
    (internal : node.Internal) : SafeSteps known (Step.contain container node) [node.id] :=
  (declare internal).append
    (connect ⟨container, node.id, .contains, .high⟩ (.inl hc) (.inr (by simp)) (by simp))

theorem adopt {node : SymbolNode} {container : String} {confidence : Confidence}
    (internal : node.Internal) (hc : known container) (strong : confidence ≠ .low) :
    SafeSteps known [.adopt node container confidence] [node.id] := by
  intro draft sound inside
  have ran : Progress.through Draft.apply draft [.adopt node container confidence] =
    draft.apply (.adopt node container confidence) := rfl
  rw [ran, Draft.apply]
  split
  · next taken =>
      obtain ⟨old, found⟩ := Option.isSome_iff_exists.mp taken
      refine ⟨rfl, sound, .refl draft.graph, ?_⟩
      intro id member
      rw [List.mem_singleton.mp member]
      refine ⟨old, found, fun external => ?_⟩
      -- The id shows that the node already there is no external one.
      have form := (sound.graph.labelled found).mp external
      simp [internal.2] at form
  · have growth := sound.graph.toWired.insert_grows internal.form
    have made : (draft.graph.insert node).Inside node.id := CodeGraph.insert_inside internal
    obtain ⟨stored, found, kind⟩ := made
    have ends : (draft.graph.insert node).Joins ⟨container, node.id, .contains, confidence⟩ :=
      ⟨growth.inside (inside _ hc), stored, found, iff_of_false strong kind⟩
    have inserted := sound.grow (sound.graph.insert internal) growth
    rw [Draft.connect_of_joins ends]
    refine ⟨rfl, ⟨inserted.graph.push ends, inserted.tables⟩, growth, ?_⟩
    intro id member
    rw [List.mem_singleton.mp member]
    exact ⟨stored, found, kind⟩

/-- A reference to a node of the repository needs that node; any other makes its own. -/
theorem link {source : String} {resolution : Resolution} (kind : EdgeKind) (hs : known source)
    (grounded : resolution.Grounded known) :
    SafeSteps known (Step.link source resolution kind) [] := by
  obtain ⟨target, confidence⟩ := resolution
  cases target with
  | node id => exact connect _ hs grounded.1 grounded.2
  | external name =>
      intro draft sound inside
      have joined := sound.graph.mention ⟨source, Identifier.external name, kind, confidence⟩
        (inside _ hs) rfl grounded
      have growth := (sound.graph.toWired.ensureExternal name).2
      have ran : Progress.through Draft.apply draft
          (Step.link source ⟨.external name, confidence⟩ kind) =
        Draft.connect { draft with graph := draft.graph.ensureExternal name }
          ⟨source, Identifier.external name, kind, confidence⟩ := rfl
      rw [ran, Draft.connect_of_joins joined.1]
      exact ⟨rfl, ⟨joined.2, sound.tables.mono fun _ h => growth.inside h⟩, growth, by simp⟩

end SafeSteps

end SourceAtlas
