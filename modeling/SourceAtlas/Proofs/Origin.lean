/- Where the nodes of a build come from. Each was made by a step of one of the passes: a file by the
first, what is declared in files by the second, and a name outside of the repository where it is
mentioned. So the id of a node shows whether it is a file. -/
import SourceAtlas.Proofs.Owners

namespace SourceAtlas

/-- The node that a step stores, if its id is free or may be taken again. -/
def Step.node? : Step → Option SymbolNode
  | .declare node => some node
  | .adopt node _ _ => some node
  | .mention name => some (externalNode name)
  | .connect _ => none
  | .register _ => none

theorem CodeGraph.insert_origin {graph : CodeGraph} {made node : SymbolNode} {id : String}
    (found : (graph.insert made).nodes[id]? = some node) :
    graph.nodes[id]? = some node ∨ made = node := by
  rw [CodeGraph.nodes_insert] at found
  split at found
  · exact .inr (Option.some.inj found)
  · exact .inl found

namespace Draft

variable {draft : Draft} {id : String} {node : SymbolNode}

@[simp] theorem nodes_connect (draft : Draft) (edge : GraphEdge) :
    (draft.connect edge).state.graph.nodes = draft.graph.nodes := by
  unfold Draft.connect CodeGraph.connect
  split
  · next graph joined =>
      split at joined
      · cases joined
      · split at joined
        · cases joined
        · cases joined
          rfl
  · rfl

theorem apply_origin {step : Step} (found : (draft.apply step).state.graph.nodes[id]? = some node) :
    draft.graph.nodes[id]? = some node ∨ step.node? = some node := by
  cases step with
  | declare made =>
      rcases CodeGraph.insert_origin found with old | same
      · exact .inl old
      · exact .inr (congrArg some same)
  | adopt made container confidence =>
      simp only [apply] at found
      split at found
      · exact .inl found
      · rw [nodes_connect] at found
        rcases CodeGraph.insert_origin found with old | same
        · exact .inl old
        · exact .inr (congrArg some same)
  | mention name =>
      simp only [apply, CodeGraph.ensureExternal] at found
      split at found
      · exact .inl found
      · rcases CodeGraph.insert_origin found with old | same
        · exact .inl old
        · exact .inr (congrArg some same)
  | connect edge =>
      simp only [apply] at found
      rw [nodes_connect] at found
      exact .inl found
  | register entry => exact .inl found

theorem run_origin {steps : List Step} (done : (draft.run steps).fault = none)
    (found : (draft.run steps).state.graph.nodes[id]? = some node) :
    draft.graph.nodes[id]? = some node ∨ ∃ step ∈ steps, step.node? = some node := by
  induction steps generalizing draft with
  | nil => exact .inl found
  | cons step rest ih =>
      obtain ⟨_, onward⟩ := Progress.through_cons_of_done done
      have split : draft.run (step :: rest) = (draft.apply step).state.run rest := onward
      rw [split] at done found
      rcases ih done found with early | ⟨other, member, made⟩
      · rcases apply_origin early with old | made
        · exact .inl old
        · exact .inr ⟨step, by simp, made⟩
      · exact .inr ⟨other, by simp [member], made⟩

/-- The steps of later scripts depend on the tables that earlier ones left. -/
theorem perform_origin {taken : List String} {scripts : List Script}
    (tidy : ∀ script ∈ scripts, ∀ tables, ∀ step ∈ script tables, step.Tidy)
    (held : draft.graph.Adopted taken) (done : (draft.perform scripts).fault = none)
    (found : (draft.perform scripts).state.graph.nodes[id]? = some node) :
    draft.graph.nodes[id]? = some node ∨
      ∃ step ∈ Script.stepsFrom draft.tables scripts, step.node? = some node := by
  induction scripts generalizing draft taken with
  | nil => exact .inl found
  | cons script rest ih =>
      obtain ⟨first, onward⟩ := Progress.through_cons_of_done done
      have start := run_took (tidy script (by simp) draft.tables) held first
      have split : draft.perform (script :: rest) =
          (draft.run (script draft.tables)).state.perform rest := onward
      rw [split] at done found
      rcases ih (fun other member => tidy other (by simp [member])) start.adopted done found with
        early | ⟨step, member, made⟩
      · rcases run_origin first early with old | ⟨step, member, made⟩
        · exact .inl old
        · exact .inr ⟨step, List.mem_append_left _ member, made⟩
      · rw [start.tables] at member
        exact .inr ⟨step, List.mem_append_right _ member, made⟩

end Draft

namespace Workspace

variable {frontends : Frontends} {workspace : Workspace} {done : List (Pass × Family)} {id : String}
  {node : SymbolNode}

theorem runPass_origin {slot : Pass × Family} (suitable : frontends.Suitable)
    (follows : workspace.Follows frontends done) (turn : passesOf slot.2 done = slot.1.earlier)
    (finished : (workspace.runPass frontends slot.2 slot.1).fault = none)
    (found : (workspace.runPass frontends slot.2 slot.1).state.graph.nodes[id]? = some node) :
    workspace.graph.nodes[id]? = some node ∨
      ∃ step ∈ frontends.steps slot.2 slot.1, step.node? = some node := by
  obtain ⟨taken, held, _⟩ := follows.adopted
  have sees : workspace.tables.get slot.2 = frontends.tablesAfter slot.2 slot.1.earlier := by
    rw [follows.tables, turn]
  have origin := Draft.perform_origin (fun script listed tables step inside =>
    (suitable slot.2 slot.1 script listed tables step inside).tidy) held finished found
  simp only [sees] at origin
  exact origin

theorem runPasses_origin (suitable : frontends.Suitable) (passes : List (Pass × Family))
    (follows : workspace.Follows frontends done) (turns : inTurn done passes = true)
    (finished : (workspace.runPasses frontends passes).fault = none)
    (found : (workspace.runPasses frontends passes).state.graph.nodes[id]? = some node) :
    workspace.graph.nodes[id]? = some node ∨
      ∃ slot ∈ passes, ∃ step ∈ frontends.steps slot.2 slot.1, step.node? = some node := by
  induction passes generalizing workspace done with
  | nil => exact .inl found
  | cons slot rest ih =>
      simp only [inTurn, Bool.and_eq_true, beq_iff_eq] at turns
      obtain ⟨first, onward⟩ := Progress.through_cons_of_done finished
      have next := runPass_follows suitable follows turns.1 first
      have split : workspace.runPasses frontends (slot :: rest) =
          (workspace.runPass frontends slot.2 slot.1).state.runPasses frontends rest := onward
      rw [split] at finished found
      rcases ih next turns.2 finished found with early | ⟨other, member, made⟩
      · rcases runPass_origin suitable follows turns.1 first early with old | made
        · exact .inl old
        · exact .inr ⟨slot, by simp, made⟩
      · exact .inr ⟨other, by simp [member], made⟩

end Workspace

section Build

variable {files : List SourceFile} {result : GraphResult}

theorem buildGraph_origin (built : buildGraph files = .ok result) {id : String} {node : SymbolNode}
    (found : result.nodes[id]? = some node) :
    ∃ pass family, ∃ step ∈ (frontendsOf files).steps family pass, step.node? = some node := by
  obtain ⟨finished, _⟩ := runPasses_frontendsOf files inOrder_passOrder (by decide)
  have done : (buildWorkspace files).fault = none := finished
  delta buildGraph at built
  simp only [done] at built
  cases built
  rcases Workspace.runPasses_origin (frontendsOf_suitable files) passOrder Workspace.follows_empty
    (by decide)
    finished found with absent | ⟨slot, _, made⟩
  · simp [Workspace.empty] at absent
  · exact ⟨slot.1, slot.2, made⟩

theorem mem_edges_of_mem_links (built : buildGraph files = .ok result) {family : Family}
    {pass : Pass} {edge : GraphEdge} (member : edge ∈ (frontendsOf files).links family pass) :
    edge ∈ result.edges := by
  obtain ⟨same, rebuilt, edges⟩ := buildGraph_edges files
  cases built.symm.trans rebuilt
  rw [edges]
  refine List.mem_flatMap.mpr ⟨pass, by cases pass <;> decide, ?_⟩
  cases family <;> simp [member]

theorem sound_of_buildGraph (built : buildGraph files = .ok result) :
    ∃ graph : CodeGraph, graph.Sound ∧ graph.nodes = result.nodes ∧
      graph.edges.toList = result.edges := by
  obtain ⟨graph, sound, rebuilt⟩ := buildGraph_sound files
  cases built.symm.trans rebuilt
  exact ⟨graph, sound, rfl, rfl⟩

theorem keyed_of_buildGraph (built : buildGraph files = .ok result) {id : String}
    {node : SymbolNode} (found : result.nodes[id]? = some node) : node.id = id := by
  obtain ⟨graph, sound, nodes, -⟩ := sound_of_buildGraph built
  exact sound.keyed (nodes ▸ found)

/-- Both ends of an edge are nodes. -/
theorem joined_of_mem_edges (built : buildGraph files = .ok result) {edge : GraphEdge}
    (member : edge ∈ result.edges) :
    (∃ node, result.nodes[edge.source]? = some node) ∧ ∃ node,
      result.nodes[edge.target]? = some node := by
  obtain ⟨graph, sound, nodes, edges⟩ := sound_of_buildGraph built
  have drawn : edge ∈ graph.edges := by
    rw [← Array.mem_toList_iff, edges]
    exact member
  obtain ⟨⟨source, found, _⟩, target, alsoFound, _⟩ := sound.joined edge drawn
  rw [nodes] at found alsoFound
  exact ⟨⟨source, found⟩, target, alsoFound⟩

theorem buildGraph_isExternal_iff (built : buildGraph files = .ok result) {id : String}
    {node : SymbolNode} (found : result.nodes[id]? = some node) :
    node.kind = .external ↔ Identifier.isExternal id = true := by
  obtain ⟨graph, sound, nodes, _⟩ := sound_of_buildGraph built
  rw [← nodes] at found
  exact sound.labelled found

end Build

/-- A step that makes a node of the repository only in the pass for nodes of its kind: files in the
first, and what is declared in them in the second. A module is entered with the id of a file. -/
def Step.Makes (pass : Pass) : Step → Prop
  | .declare node =>
    pass = .files ∧ node.kind = .file ∧ Identifier.isFile node.id = true ∨
      pass = .definitions ∧ node.kind ≠ .file ∧ Identifier.isFile node.id = false
  | .adopt node _ _ => pass = .definitions ∧ node.kind ≠ .file ∧ Identifier.isFile node.id = false
  | .register (.file _ _ id) => Identifier.isFile id = true
  | _ => True

open Step

theorem Step.IsCall.makes {pass : Pass} {step : Step} (call : step.IsCall) : step.Makes pass := by
  cases step with
  | mention name => trivial
  | connect edge => trivial
  | _ => cases call

theorem Step.laws_makes (family : Family) : Laws family Makes where
  file unit :=
    have form := Identifier.startsWith_lead .file .file unit.path
    .cons (.inl ⟨rfl, rfl, form⟩) (.cons form .nil)
  symbol _ _ _ declared :=
    .cons (.inr ⟨rfl, declared, Identifier.startsWith_lead .symbol .file _⟩)
      (.cons trivial (.cons trivial .nil))
  method _ _ _ _ _ := .cons (.inr
    ⟨rfl, by simp [Declaration.toNode], Identifier.startsWith_lead .symbol .file _⟩)
    (.cons trivial (.cons trivial .nil))
  blueprint _ _ _ := .cons ⟨rfl, by simp, Identifier.startsWith_lead .blueprint .file _⟩
    (.cons trivial .nil)
  imports _ _ := .imports (fun _ => .link (fun _ => trivial) trivial) fun _ _ _ _ => trivial
  bases _ _ := .bases (fun _ => .link (fun _ => trivial) trivial) trivial
  call isCall := isCall.makes

theorem frontendsOf_makes (files : List SourceFile) (family : Family) (pass : Pass) :
    Each (Makes pass) ((frontendsOf files).steps family pass) := by
  intro step member
  obtain ⟨script, listed, seen, inside⟩ := Script.mem_stepsFrom member
  exact Frontends.ofFiles_each laws_makes _ files family pass script listed seen step inside

/-- A node is a file if and only if its id says so. -/
theorem buildGraph_isFile_iff {files : List SourceFile} {result : GraphResult}
    (built : buildGraph files = .ok result) {id : String} {node : SymbolNode}
    (found : result.nodes[id]? = some node) :
    node.kind = .file ↔ Identifier.isFile id = true := by
  have keyed := keyed_of_buildGraph built found
  obtain ⟨pass, family, step, member, made⟩ := buildGraph_origin built found
  have makes := frontendsOf_makes files family pass step member
  rw [← keyed]
  cases step with
  | declare other =>
      cases made
      rcases makes with ⟨-, kind, form⟩ | ⟨-, kind, form⟩
      · exact iff_of_true kind form
      · exact iff_of_false kind (by simp [form])
  | adopt other container confidence =>
      cases made
      obtain ⟨-, kind, form⟩ := makes
      exact iff_of_false kind (by simp [form])
  | mention name =>
      cases made
      exact iff_of_false (by simp [externalNode])
        (Bool.eq_false_iff.mp (Identifier.startsWith_lead .external .file name))
  | _ => cases made

end SourceAtlas
