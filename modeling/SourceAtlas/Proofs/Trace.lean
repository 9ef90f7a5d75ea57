/- Construction without its graph: the steps that scripts ask for one after the other, the tables
that they leave and the edges that they draw. A run without a fault does just that. -/
import SourceAtlas.Proofs.Construction
import SourceAtlas.Proofs.Registration

namespace SourceAtlas

namespace Step

def entry? : Step → Option Registration
  | .register entry => some entry
  | _ => none

/-- The entries that steps make into the tables. -/
def entries (steps : List Step) : List Registration := steps.filterMap entry?

def edge? : Step → Option GraphEdge
  | .connect edge => some edge
  | _ => none

/-- The edges that steps ask for outright. -/
def edges (steps : List Step) : List GraphEdge := steps.filterMap edge?

/-- The ids that have been adopted, after one more step. -/
def adopted (taken : List String) : Step → List String
  | .adopt node _ _ => node.id :: taken
  | _ => taken

/-- The edges of a step, given the ids that have been adopted before it. -/
def draw (taken : List String) : Step → List GraphEdge
  | .connect edge => [edge]
  | .adopt node container confidence =>
    if node.id ∈ taken then [] else [⟨container, node.id, .contains, confidence⟩]
  | _ => []

def drawn : List String → List Step → List GraphEdge
  | _, [] => []
  | taken, step :: rest => step.draw taken ++ drawn (step.adopted taken) rest

/-- Exactly the nodes that steps adopt have the ids of blueprints. -/
def Tidy : Step → Prop
  | .declare node => Identifier.isBlueprint node.id = false
  | .adopt node _ _ => Identifier.isBlueprint node.id = true
  | _ => True

@[simp] theorem entries_append (first second : List Step) :
    entries (first ++ second) = entries first ++ entries second :=
  List.filterMap_append

@[simp] theorem edges_append (first second : List Step) :
    edges (first ++ second) = edges first ++ edges second :=
  List.filterMap_append

@[simp] theorem entries_flatMap {α : Type} (list : List α) (part : α → List Step) :
    entries (list.flatMap part) = list.flatMap fun item => entries (part item) :=
  List.filterMap_flatMap

@[simp] theorem edges_flatMap {α : Type} (list : List α) (part : α → List Step) :
    edges (list.flatMap part) = list.flatMap fun item => edges (part item) :=
  List.filterMap_flatMap

theorem drawn_append (taken : List String) (first second : List Step) :
    drawn taken (first ++ second) =
      drawn taken first ++ drawn (first.foldl adopted taken) second := by
  induction first generalizing taken with
  | nil => rfl
  | cons step rest ih => simp only [List.cons_append, drawn, ih, List.foldl_cons, List.append_assoc]

/-- Only the edges of adopted nodes depend on what was adopted before, and those are of
containment. -/
theorem filter_drawn {p : GraphEdge → Bool} (links : ∀ edge, p edge = true → edge.kind ≠ .contains)
    (taken : List String) (steps : List Step) :
    (drawn taken steps).filter p = (edges steps).filter p := by
  induction steps generalizing taken with
  | nil => rfl
  | cons step rest ih =>
      rw [drawn, List.filter_append, ih]
      cases step with
      | connect edge => exact (List.filter_append [edge] (edges rest)).symm
      | adopt node container confidence =>
          have rejected : p ⟨container, node.id, .contains, confidence⟩ = false := by
            rw [Bool.eq_false_iff]
            exact fun kept => links _ kept rfl
          have same : edges (.adopt node container confidence :: rest) = edges rest := rfl
          rw [same, draw]
          split <;> simp [rejected]
      | _ => rfl

/-- An edge that is asked for without condition is drawn, whatever was adopted. -/
theorem mem_drawn_of_connect {steps : List Step} {edge : GraphEdge} (member : .connect edge ∈ steps)
    (taken : List String) : edge ∈ drawn taken steps := by
  induction steps generalizing taken with
  | nil => cases member
  | cons step rest ih =>
      rw [drawn, List.mem_append]
      rcases List.mem_cons.mp member with rfl | later
      · exact .inl List.mem_cons_self
      · exact .inr (ih later _)

end Step

namespace SymbolTables

def after (tables : SymbolTables) (steps : List Step) : SymbolTables :=
  (Step.entries steps).foldl record tables

@[simp] theorem after_append (tables : SymbolTables) (first second : List Step) :
    tables.after (first ++ second) = (tables.after first).after second := by
  simp only [after, Step.entries_append, List.foldl_append]

theorem after_flatMap {α : Type} (tables : SymbolTables) (list : List α) (part : α → List Step) :
    tables.after (list.flatMap part) =
      list.foldl (fun tables item => tables.after (part item)) tables := by
  induction list generalizing tables with
  | nil => rfl
  | cons item rest ih => rw [List.flatMap_cons, after_append, ih, List.foldl_cons]

end SymbolTables

namespace Script

/-- The steps that scripts ask for when each sees the tables that the earlier ones left. -/
def stepsFrom : SymbolTables → List Script → List Step
  | _, [] => []
  | tables, script :: rest => script tables ++ stepsFrom (tables.after (script tables)) rest

theorem stepsFrom_append (tables : SymbolTables) (first second : List Script) :
    stepsFrom tables (first ++ second) =
      stepsFrom tables first ++ stepsFrom (tables.after (stepsFrom tables first)) second := by
  induction first generalizing tables with
  | nil => rfl
  | cons script rest ih =>
      simp only [List.cons_append, stepsFrom, ih, SymbolTables.after_append, List.append_assoc]

/-- Scripts that read nothing which their own entries change all see the tables as they were. -/
theorem stepsFrom_map {α : Type} {list : List α} {script : α → Script} (tables : SymbolTables)
    (alike : SymbolTables → Prop) (start : alike tables)
    (blind : ∀ item ∈ list, ∀ later, alike later → script item later = script item tables)
    (kept : ∀ item ∈ list, ∀ later, alike later → alike (later.after (script item tables))) :
    stepsFrom tables (list.map script) = list.flatMap fun item => script item tables := by
  have general : ∀ (rest : List α) (later : SymbolTables),
      (∀ item ∈ rest, item ∈ list) → alike later →
      stepsFrom later (rest.map script) = rest.flatMap fun item => script item tables := by
    intro rest
    induction rest with
    | nil => intros; rfl
    | cons item rest ih =>
        intro later inside same
        have member := inside item (by simp)
        rw [List.map_cons, stepsFrom, blind item member later same, List.flatMap_cons]
        rw [ih _ (fun other there => inside other (by simp [there])) (kept item member later same)]
  exact general list tables (fun _ member => member) start

@[simp] theorem stepsFrom_fixed {α : Type} (tables : SymbolTables) (list : List α)
    (part : α → List Step) :
    stepsFrom tables (list.map fun item => fixed (part item)) = list.flatMap part :=
  stepsFrom_map tables (fun _ => True) trivial (fun _ _ _ _ => rfl) (fun _ _ _ _ => trivial)

theorem mem_stepsFrom {tables : SymbolTables} {scripts : List Script} {step : Step}
    (member : step ∈ stepsFrom tables scripts) :
    ∃ script ∈ scripts, ∃ seen, step ∈ script seen := by
  induction scripts generalizing tables with
  | nil => cases member
  | cons script rest ih =>
      rcases List.mem_append.mp member with here | later
      · exact ⟨script, by simp, tables, here⟩
      · obtain ⟨other, inside, seen, there⟩ := ih later
        exact ⟨other, by simp [inside], seen, there⟩

end Script

/-- The blueprints of a graph are those that have been adopted. -/
def CodeGraph.Adopted (graph : CodeGraph) (taken : List String) : Prop :=
  ∀ id, Identifier.isBlueprint id = true → (graph.contains id = true ↔ id ∈ taken)

theorem CodeGraph.adopted_empty : CodeGraph.Adopted {} [] := by
  intro id _
  simp [CodeGraph.contains]

@[simp] theorem CodeGraph.contains_insert (graph : CodeGraph) (node : SymbolNode) (id : String) :
    (graph.insert node).contains id = true ↔ node.id = id ∨ graph.contains id = true := by
  rw [CodeGraph.contains, CodeGraph.nodes_insert]
  by_cases same : node.id = id <;> simp [same, CodeGraph.contains]

theorem CodeGraph.Adopted.insert {graph : CodeGraph} {taken : List String}
    (held : graph.Adopted taken) {node : SymbolNode}
    (other : Identifier.isBlueprint node.id = false) :
    (graph.insert node).Adopted taken := by
  intro id form
  rw [CodeGraph.contains_insert, held id form]
  refine or_iff_right fun same => ?_
  rw [same, form] at other
  cases other

/-- Construction went on from one draft to another by the entries and the edges of some steps. -/
structure Draft.Took (before : Draft) (taken : List String) (steps : List Step) (after : Draft) :
    Prop where
  tables : after.tables = before.tables.after steps
  edges : after.graph.edges.toList = before.graph.edges.toList ++ Step.drawn taken steps
  adopted : after.graph.Adopted (steps.foldl Step.adopted taken)

theorem Draft.Took.trans {before middle after : Draft} {taken : List String}
    {first second : List Step} (start : before.Took taken first middle)
    (rest : middle.Took (first.foldl Step.adopted taken) second after) :
    before.Took taken (first ++ second) after := by
  refine ⟨?_, ?_, ?_⟩
  · rw [rest.tables, start.tables, SymbolTables.after_append]
  · rw [rest.edges, start.edges, Step.drawn_append, List.append_assoc]
  · rw [List.foldl_append]
    exact rest.adopted

/-- A fault at any item stays, so a run without one carried out its first item and went on. -/
theorem Progress.through_cons_of_done {α β : Type} {carry : α → β → Progress α} {start : α}
    {item : β} {rest : List β} (done : (Progress.through carry start (item :: rest)).fault = none) :
    (carry start item).fault = none ∧
      Progress.through carry start (item :: rest) =
        Progress.through carry (carry start item).state rest := by
  have stuck : ∀ (items : List β) (progress : Progress α),
      (items.foldl (fun progress item => progress.andThen carry item) progress).fault = none →
        progress.fault = none := by
    intro items
    induction items with
    | nil => exact fun _ h => h
    | cons head tail ih =>
        intro progress h
        have next := ih _ h
        cases fault : progress.fault with
        | none => rfl
        | some missing => simp [Progress.andThen, fault] at next
  have first : (carry start item).fault = none := stuck rest _ done
  exact ⟨first, Progress.through_append_of_done [item] rest first⟩

namespace Draft

variable {draft : Draft} {taken : List String}

theorem connect_of_done {edge : GraphEdge} (done : (draft.connect edge).fault = none) :
    (draft.connect edge).state =
      { draft with graph := { draft.graph with edges := draft.graph.edges.push edge } } := by
  unfold Draft.connect at done ⊢
  cases joined : draft.graph.connect edge with
  | error fault => simp [joined] at done
  | ok graph =>
      unfold CodeGraph.connect at joined
      split at joined
      · cases joined
      · split at joined
        · cases joined
        · cases joined
          rfl

theorem apply_took {step : Step} (tidy : step.Tidy) (held : draft.graph.Adopted taken)
    (done : (draft.apply step).fault = none) :
    draft.Took taken [step] (draft.apply step).state := by
  cases step with
  | declare node =>
      exact ⟨rfl, by simp [apply, CodeGraph.insert, Step.drawn, Step.draw], held.insert tidy⟩
  | adopt node container confidence =>
      have known := held node.id tidy
      simp only [apply] at done ⊢
      split at done
      · next found =>
          have old := known.mp found
          rw [if_pos found]
          refine ⟨rfl, by simp [Step.drawn, Step.draw, old], fun id form => ?_⟩
          rw [held id form]
          simp only [List.foldl_cons, List.foldl_nil, Step.adopted, List.mem_cons]
          exact ⟨.inr, fun either => either.elim (fun same => same ▸ old) fun member => member⟩
      · next missing =>
          have new : node.id ∉ taken := fun member => missing (known.mpr member)
          rw [if_neg missing, connect_of_done done]
          refine ⟨rfl, by simp [CodeGraph.insert, Step.drawn, Step.draw, new], fun id form => ?_⟩
          have inserted := CodeGraph.contains_insert draft.graph node id
          rw [held id form] at inserted
          simp only [List.foldl_cons, List.foldl_nil, Step.adopted, List.mem_cons]
          exact inserted.trans (or_congr_left eq_comm)
  | mention name =>
      refine ⟨rfl, by simp [apply, Step.drawn, Step.draw], ?_⟩
      simp only [apply, CodeGraph.ensureExternal]
      split
      · exact held
      · exact held.insert (Identifier.startsWith_lead .external .blueprint name)
  | connect edge =>
      simp only [apply] at done ⊢
      rw [connect_of_done done]
      exact ⟨rfl, by simp [Step.drawn, Step.draw], held⟩
  | register entry => exact ⟨rfl, by simp [apply, Step.drawn, Step.draw], held⟩

theorem run_took {steps : List Step} (tidy : ∀ step ∈ steps, step.Tidy)
    (held : draft.graph.Adopted taken) (done : (draft.run steps).fault = none) :
    draft.Took taken steps (draft.run steps).state := by
  induction steps generalizing draft taken with
  | nil => exact ⟨rfl, by simp [run, Step.drawn], held⟩
  | cons step rest ih =>
      obtain ⟨first, onward⟩ := Progress.through_cons_of_done done
      have start := apply_took (tidy step (by simp)) held first
      have split : draft.run (step :: rest) = (draft.apply step).state.run rest := onward
      rw [split] at done ⊢
      exact start.trans (ih (fun other member => tidy other (by simp [member])) start.adopted done)

/-- A run of scripts without a fault takes the steps that they ask for. -/
theorem perform_took {scripts : List Script}
    (tidy : ∀ script ∈ scripts, ∀ tables, ∀ step ∈ script tables, step.Tidy)
    (held : draft.graph.Adopted taken) (done : (draft.perform scripts).fault = none) :
    draft.Took taken (Script.stepsFrom draft.tables scripts) (draft.perform scripts).state := by
  induction scripts generalizing draft taken with
  | nil => exact ⟨rfl, by simp [perform, Script.stepsFrom, Step.drawn], held⟩
  | cons script rest ih =>
      obtain ⟨first, onward⟩ := Progress.through_cons_of_done done
      have start := run_took (tidy script (by simp) draft.tables) held first
      have split : draft.perform (script :: rest) =
          (draft.run (script draft.tables)).state.perform rest := onward
      rw [split] at done ⊢
      have later := ih (fun other member => tidy other (by simp [member])) start.adopted done
      rw [start.tables] at later
      exact start.trans later

end Draft

end SourceAtlas
