/- The graph of every list of files is complete and consistent: construction meets no missing end,
and external nodes are the targets of exactly the edges of low confidence. -/
import SourceAtlas.Graph.Build
import SourceAtlas.Proofs.Linking.JavaScript
import SourceAtlas.Proofs.Linking.Python
import SourceAtlas.Proofs.Linking.Swift

namespace SourceAtlas

@[simp] theorem PerFamily.get_set {α : Type} (values : PerFamily α) (value : α)
    (family other : Family) :
    (values.set value family).get other = if family = other then value else values.get other := by
  cases family <;> cases other <;> rfl

namespace Frontends

/-- The landmarks of the front-ends over a list of files. -/
def marks (moduleName : SourceFile → String) (files : List SourceFile) : Family → Pass → List String
  | .python => landmarks (units moduleName Python.Outline.ofFile .python files) []
  | .javaScript => landmarks (units moduleName JavaScript.Outline.ofFile .javaScript files) []
  | .swift =>
    let units := units moduleName Swift.Outline.ofFile .swift files
    landmarks units (Swift.allMemberIds units)

theorem ofFiles_lawful (moduleName : SourceFile → String) (files : List SourceFile)
    (family : Family) :
    Lawful (ofFiles moduleName files family) (marks moduleName files family) := by
  cases family with
  | python => exact Python.scripts_lawful _
  | javaScript => exact JavaScript.scripts_lawful _
  | swift => exact Swift.scripts_lawful _

end Frontends

/-- A sound graph, and tables of every family that know only nodes of the repository in it. -/
structure Workspace.Sound (workspace : Workspace) : Prop where
  graph : workspace.graph.Sound
  tables : ∀ family, (workspace.tables.get family).HoldsOnly workspace.graph.Inside

/-- The landmarks of the passes that a workspace has behind it are in its graph. -/
def Workspace.Reached (marks : Family → Pass → List String) (workspace : Workspace)
    (done : List (Pass × Family)) : Prop :=
  ∀ pass family, (pass, family) ∈ done → ∀ id ∈ marks family pass, workspace.graph.Inside id

/-- Every pass comes after the earlier passes of its family, some of which are done already. -/
def inOrder (done : List (Pass × Family)) : List (Pass × Family) → Bool
  | [] => true
  | (pass, family) :: rest =>
    pass.earlier.all (fun earlier => (earlier, family) ∈ done) &&
      inOrder ((pass, family) :: done) rest

theorem inOrder_passOrder : inOrder [] passOrder = true := by decide

namespace Workspace

variable {frontends : Frontends} {marks : Family → Pass → List String} {workspace : Workspace}

theorem sound_empty : Workspace.empty.Sound := by
  refine ⟨CodeGraph.sound_empty, fun family => ?_⟩
  cases family <;> exact SymbolTables.holdsOnly_empty _

/-- One pass of one family keeps everything and adds its landmarks. -/
theorem runPass_sound {pass : Pass} {family : Family} {done : List (Pass × Family)}
    (lawful : Lawful (frontends family) (marks family)) (sound : workspace.Sound)
    (reached : workspace.Reached marks done)
    (ready : ∀ earlier ∈ pass.earlier, (earlier, family) ∈ done) :
    (workspace.runPass frontends family pass).fault = none ∧
      (workspace.runPass frontends family pass).state.Sound ∧
      (workspace.runPass frontends family pass).state.Reached marks ((pass, family) :: done) := by
  have completed := lawful pass ⟨workspace.graph, workspace.tables.get family⟩
    ⟨sound.graph, sound.tables family⟩ (by
      rintro id ⟨earlier, before, mark⟩
      exact reached earlier family (ready earlier before) id mark)
  refine ⟨completed.done, ⟨completed.sound.graph, fun other => ?_⟩, ?_⟩
  · rw [runPass, PerFamily.get_set]
    split
    · exact completed.sound.tables
    · exact (sound.tables other).mono fun _ inside => completed.grows.inside inside
  · intro earlier other member id mark
    rcases List.mem_cons.mp member with same | old
    · cases same
      exact completed.given id mark
    · exact completed.grows.inside (reached earlier other old id mark)

theorem runPasses_sound (lawful : ∀ family, Lawful (frontends family) (marks family))
    (passes : List (Pass × Family)) {done : List (Pass × Family)}
    (order : inOrder done passes = true) (sound : workspace.Sound)
    (reached : workspace.Reached marks done) :
    (workspace.runPasses frontends passes).fault = none ∧
      (workspace.runPasses frontends passes).state.Sound ∧
      (workspace.runPasses frontends passes).state.Reached marks (passes.reverse ++ done) := by
  induction passes generalizing workspace done with
  | nil => exact ⟨rfl, sound, reached⟩
  | cons head rest ih =>
      obtain ⟨pass, family⟩ := head
      simp only [inOrder, Bool.and_eq_true, List.all_eq_true, decide_eq_true_eq] at order
      obtain ⟨finished, next, further⟩ := runPass_sound (lawful family) sound reached order.1
      have split : workspace.runPasses frontends ((pass, family) :: rest) =
          (workspace.runPass frontends family pass).state.runPasses frontends rest :=
        Progress.through_append_of_done [(pass, family)] rest finished
      rw [split, List.reverse_cons, List.append_assoc]
      exact ih order.2 next further

end Workspace

theorem buildWorkspace_sound (files : List SourceFile) :
    (buildWorkspace files).fault = none ∧ (buildWorkspace files).state.Sound ∧
      (buildWorkspace files).state.Reached (Frontends.marks (moduleNames files) files)
        (passOrder.reverse ++ []) :=
  Workspace.runPasses_sound (Frontends.ofFiles_lawful (moduleNames files) files) passOrder
    inOrder_passOrder Workspace.sound_empty (by simp [Workspace.Reached])

/-- Construction succeeds, and what it returns comes from a sound graph. -/
theorem buildGraph_sound (files : List SourceFile) :
    ∃ graph : CodeGraph, graph.Sound ∧
      buildGraph files = .ok ⟨graph.nodes, graph.edges.toList,
        Contents.ofPaths (files.map SourceFile.path)⟩ := by
  obtain ⟨finished, sound, -⟩ := buildWorkspace_sound files
  refine ⟨(buildWorkspace files).state.graph, sound.graph, ?_⟩
  delta buildGraph
  simp only [finished]

/-- Whatever the files hold, no edge is ever asked for between nodes of which one is missing;
the result has both ends of every edge, and every node under its own id. -/
theorem buildGraph_closed (files : List SourceFile) :
    ∃ result, buildGraph files = .ok result ∧
      (∀ edge ∈ result.edges, edge.source ∈ result.nodes ∧ edge.target ∈ result.nodes) ∧
      ∀ (id : String) (node : SymbolNode), result.nodes[id]? = some node → node.id = id := by
  obtain ⟨graph, sound, built⟩ := buildGraph_sound files
  refine ⟨_, built, fun edge member => ?_, fun id node found => sound.keyed found⟩
  obtain ⟨⟨source, foundSource, _⟩, target, foundTarget, _⟩ :=
    sound.joined edge (by simpa using member)
  exact ⟨Std.ExtTreeMap.mem_iff_isSome_getElem?.mpr (by simp [foundSource]),
    Std.ExtTreeMap.mem_iff_isSome_getElem?.mpr (by simp [foundTarget])⟩

/-- Low confidence means an external target and nothing else does; external nodes have no edges of
their own, are there for an edge to them, and are told by their ids. -/
theorem buildGraph_externals (files : List SourceFile) :
    ∃ result, buildGraph files = .ok result ∧
      (∀ edge ∈ result.edges, ∃ target, result.nodes[edge.target]? = some target ∧
        (edge.confidence = .low ↔ target.kind = .external)) ∧
      (∀ edge ∈ result.edges, ∃ source, result.nodes[edge.source]? = some source ∧
        source.kind ≠ .external) ∧
      (∀ (id : String) (node : SymbolNode), result.nodes[id]? = some node → node.kind = .external →
        ∃ edge ∈ result.edges, edge.target = id) ∧
      ∀ (id : String) (node : SymbolNode), result.nodes[id]? = some node →
        (node.kind = .external ↔ Text.startsWith node.id "external:" = true) := by
  obtain ⟨graph, sound, built⟩ := buildGraph_sound files
  refine ⟨_, built, fun edge member => ?_, fun edge member => ?_, fun id node found external => ?_,
    fun id node found => ?_⟩
  · exact (sound.joined edge (by simpa using member)).2
  · exact (sound.joined edge (by simpa using member)).1
  · obtain ⟨edge, member, target⟩ := sound.reached found external
    exact ⟨edge, by simpa using member, target⟩
  · rw [sound.keyed found]
    exact sound.labelled found

end SourceAtlas
