/- A build as the sequence of its passes. What a pass of a family does follows from the scripts of
that family alone: the tables it sees are those that its own earlier passes left, and the edges it
draws do not depend on what other families have put into the graph. -/
import SourceAtlas.Proofs.Integrity
import SourceAtlas.Proofs.Namespace
import SourceAtlas.Proofs.Vocabulary

namespace SourceAtlas

namespace Frontends

variable (frontends : Frontends)

/-- The tables of a family after some of its passes. -/
def tablesAfter (family : Family) (passes : List Pass) : SymbolTables :=
  passes.foldl (fun tables pass => tables.after (Script.stepsFrom tables (frontends family pass)))
    {}

/-- The steps that a family takes in a pass. -/
def steps (family : Family) (pass : Pass) : List Step :=
  Script.stepsFrom (frontends.tablesAfter family pass.earlier) (frontends family pass)

def links (family : Family) (pass : Pass) : List GraphEdge :=
  Step.drawn [] (frontends.steps family pass)

variable {frontends}

theorem steps_suit (suitable : frontends.Suitable) (family : Family) (pass : Pass) :
    Step.AllSuit family pass (frontends.steps family pass) := by
  intro step member
  obtain ⟨script, listed, seen, inside⟩ := Script.mem_stepsFrom member
  exact suitable family pass script listed seen step inside

end Frontends

/-- Steps among which no node is adopted draw what they ask for. -/
theorem Step.drawn_of_no_adoption {steps : List Step}
    (unadopted : ∀ taken, ∀ step ∈ steps, step.adopted taken = taken) (taken : List String) :
    drawn taken steps = edges steps ∧ steps.foldl adopted taken = taken := by
  induction steps with
  | nil => exact ⟨rfl, rfl⟩
  | cons step rest ih =>
      have same := unadopted taken step (by simp)
      obtain ⟨drawing, taking⟩ :=
        ih fun taken other member => unadopted taken other (by simp [member])
      rw [drawn, List.foldl_cons, same, drawing, taking]
      cases step with
      | adopt node container confidence => simp [adopted] at same
      | _ => exact ⟨rfl, rfl⟩

theorem Step.AllSuit.no_adoption {family : Family} {pass : Pass} {steps : List Step}
    (suits : AllSuit family pass steps) (other : (pass, family) ≠ (.definitions, .python))
    (taken : List String) :
    ∀ step ∈ steps, step.adopted taken = taken := by
  intro step member
  cases step with
  | adopt node container confidence =>
      obtain ⟨_, rfl, rfl⟩ := suits _ member
      exact absurd rfl other
  | _ => rfl

/-- The passes of one family among those of all. -/
def passesOf (family : Family) (done : List (Pass × Family)) : List Pass :=
  (done.filter fun slot => slot.2 == family).map Prod.fst

/-- What was adopted before matters to one pass alone, and nothing has been adopted when that
starts. -/
theorem Frontends.drawn_steps {frontends : Frontends} {family : Family} {pass : Pass}
    {done : List (Pass × Family)} {taken : List String} (suitable : frontends.Suitable)
    (turn : passesOf family done = pass.earlier)
    (fresh : (.definitions, .python) ∉ done → taken = []) :
    Step.drawn taken (frontends.steps family pass) = frontends.links family pass := by
  by_cases adopts : (pass, family) = (.definitions, .python)
  · have first : (.definitions, .python) ∉ done := by
      cases adopts
      intro member
      have listed : Pass.definitions ∈ passesOf .python done :=
        List.mem_map.mpr ⟨_, List.mem_filter.mpr ⟨member, rfl⟩, rfl⟩
      rw [turn] at listed
      exact absurd listed (by decide)
    rw [fresh first]
    rfl
  · have unadopted := (steps_suit suitable family pass).no_adoption adopts
    rw [(Step.drawn_of_no_adoption unadopted taken).1, links,
      (Step.drawn_of_no_adoption unadopted []).1]

/-- Every pass comes just after the earlier passes of its family. -/
def inTurn (done : List (Pass × Family)) : List (Pass × Family) → Bool
  | [] => true
  | slot :: rest => passesOf slot.2 done == slot.1.earlier && inTurn (done ++ [slot]) rest

/-- A workspace that has some passes behind it. -/
structure Workspace.Follows (frontends : Frontends) (done : List (Pass × Family))
    (workspace : Workspace) :
    Prop where
  tables : ∀ family, workspace.tables.get family =
    frontends.tablesAfter family (passesOf family done)
  edges : workspace.graph.edges.toList = done.flatMap fun slot => frontends.links slot.2 slot.1
  adopted : ∃ taken, workspace.graph.Adopted taken ∧ ((.definitions, .python) ∉ done → taken = [])

namespace Workspace

variable {frontends : Frontends} {workspace : Workspace} {done : List (Pass × Family)}

theorem follows_empty : Workspace.empty.Follows frontends [] := by
  refine ⟨fun family => ?_, rfl, [], CodeGraph.adopted_empty, fun _ => rfl⟩
  cases family <;> rfl

theorem runPass_follows {slot : Pass × Family} (suitable : frontends.Suitable)
    (follows : workspace.Follows frontends done) (turn : passesOf slot.2 done = slot.1.earlier)
    (finished : (workspace.runPass frontends slot.2 slot.1).fault = none) :
    (workspace.runPass frontends slot.2 slot.1).state.Follows frontends (done ++ [slot]) := by
  obtain ⟨pass, family⟩ := slot
  obtain ⟨taken, held, fresh⟩ := follows.adopted
  have suits := Frontends.steps_suit suitable family pass
  have sees : workspace.tables.get family = frontends.tablesAfter family pass.earlier := by
    rw [follows.tables, turn]
  have took := Draft.perform_took (fun script listed tables step inside =>
    (suitable family pass script listed tables step inside).tidy) held finished
  have asked : Script.stepsFrom (workspace.tables.get family) (frontends family pass) =
      frontends.steps family pass := by
    rw [sees]
    rfl
  rw [asked] at took
  have drawing := Frontends.drawn_steps suitable turn fresh
  refine ⟨fun other => ?_, ?_, _, took.adopted, fun missing => ?_⟩
  · rw [runPass, PerFamily.get_set]
    by_cases same : family = other
    · subst same
      have mine : passesOf family (done ++ [(pass, family)]) = pass.earlier ++ [pass] := by
        rw [← turn]
        simp [passesOf]
      rw [if_pos rfl, mine, took.tables, Frontends.tablesAfter, List.foldl_append]
      exact congrArg (SymbolTables.after · _) sees
    · have theirs : passesOf other (done ++ [(pass, family)]) = passesOf other done := by
        simp [passesOf, same]
      rw [if_neg same, theirs, follows.tables]
  · rw [List.flatMap_append, ← follows.edges, List.flatMap_singleton, ← drawing]
    exact took.edges
  · have other : (pass, family) ≠ (.definitions, .python) := fun same => missing (by simp [same])
    have before : (.definitions, .python) ∉ done := fun member => missing (by simp [member])
    rw [← fresh before]
    exact (Step.drawn_of_no_adoption (suits.no_adoption other) taken).2

theorem runPasses_follows (suitable : frontends.Suitable) (passes : List (Pass × Family))
    (follows : workspace.Follows frontends done) (turns : inTurn done passes = true)
    (finished : (workspace.runPasses frontends passes).fault = none) :
    (workspace.runPasses frontends passes).state.Follows frontends (done ++ passes) := by
  induction passes generalizing workspace done with
  | nil =>
      rw [List.append_nil]
      exact follows
  | cons slot rest ih =>
      simp only [inTurn, Bool.and_eq_true, beq_iff_eq] at turns
      obtain ⟨first, onward⟩ := Progress.through_cons_of_done finished
      have next := runPass_follows suitable follows turns.1 first
      have split : workspace.runPasses frontends (slot :: rest) =
          (workspace.runPass frontends slot.2 slot.1).state.runPasses frontends rest := onward
      rw [split] at finished ⊢
      rw [← List.singleton_append, ← List.append_assoc]
      exact ih next turns.2 finished

end Workspace

def filesOf (family : Family) (files : List SourceFile) : List SourceFile :=
  files.filter fun file => file.family == family

@[simp] theorem mem_filesOf {family : Family} {files : List SourceFile} {file : SourceFile} :
    file ∈ filesOf family files ↔ file ∈ files ∧ file.family = family := by
  simp [filesOf]

theorem Frontends.mem_units {α : Type} {moduleName : SourceFile → String} {outline : SourceFile → α}
    {family : Family} {files : List SourceFile} {unit : SourceUnit α}
    (member : unit ∈ Frontends.units moduleName outline family files) :
    ∃ file ∈ files, file.family = family ∧ unit = ⟨file.path, moduleName file, outline file⟩ := by
  obtain ⟨file, listed, rfl⟩ := List.mem_map.mp member
  obtain ⟨inside, own⟩ := List.mem_filter.mp listed
  exact ⟨file, inside, beq_iff_eq.mp own, rfl⟩

theorem moduleNames_of_mem {files : List SourceFile} {file : SourceFile} (member : file ∈ files) :
    moduleNames files file = Namespace.nameAmong (files.map SourceFile.path) file.path := by
  have listed : file.path ∈ files.map SourceFile.path := List.mem_map_of_mem member
  have found := Namespace.get?_ofPaths (files.map SourceFile.path) file.path
  rw [if_pos listed] at found
  unfold moduleNames
  rw [Std.ExtTreeMap.getD_eq_getD_getElem?, found, Option.getD_some]

/-- The namespaces of files do not depend on their order. -/
theorem moduleNames_perm {files others : List SourceFile} (same : files.Perm others)
    {file : SourceFile} (member : file ∈ files) :
    moduleNames files file = moduleNames others file := by
  rw [moduleNames_of_mem member, moduleNames_of_mem (same.mem_iff.mp member),
    Namespace.nameAmong_perm (same.map SourceFile.path)]

def frontendsOf (files : List SourceFile) : Frontends := Frontends.ofFiles (moduleNames files) files

theorem frontendsOf_suitable (files : List SourceFile) : (frontendsOf files).Suitable :=
  Frontends.ofFiles_suitable _ files

/-- The workspace in which a family starts a pass of a build. -/
def workspaceBefore (files : List SourceFile) (pass : Pass) (family : Family) : Workspace :=
  (Workspace.empty.runPasses (frontendsOf files)
    (passOrder.takeWhile fun slot => slot ≠ (pass, family))).state

/-- The edges that a family adds to the graph in a pass of a build. -/
def contribution (files : List SourceFile) (pass : Pass) (family : Family) : List GraphEdge :=
  let before := workspaceBefore files pass family
  let after := (before.runPass (frontendsOf files) family pass).state
  after.graph.edges.toList.drop before.graph.edges.size

theorem runPasses_frontendsOf {passes : List (Pass × Family)} (files : List SourceFile)
    (order : inOrder [] passes = true) (turns : inTurn [] passes = true) :
    (Workspace.empty.runPasses (frontendsOf files) passes).fault = none ∧
      (Workspace.empty.runPasses (frontendsOf files) passes).state.Follows (frontendsOf files)
        passes := by
  have finished := (Workspace.runPasses_sound (Frontends.ofFiles_lawful (moduleNames files) files)
    passes order
    Workspace.sound_empty (by simp [Workspace.Reached])).1
  exact ⟨finished, Workspace.runPasses_follows (frontendsOf_suitable files) passes
    Workspace.follows_empty turns
    finished⟩

/-- A family starts a pass with all passes before it carried out, in the order of the build. -/
theorem workspaceBefore_follows (files : List SourceFile) (pass : Pass) (family : Family) :
    (Workspace.empty.runPasses (frontendsOf files)
      (passOrder.takeWhile fun slot => slot ≠ (pass, family))).fault =
      none ∧
    (workspaceBefore files pass family).Follows (frontendsOf files)
      (passOrder.takeWhile fun slot => slot ≠ (pass, family)) := by
  refine runPasses_frontendsOf files ?_ ?_ <;> cases pass <;> cases family <;> rfl

@[simp] theorem workspaceBefore_tables (files : List SourceFile) (pass : Pass) (family : Family) :
    (workspaceBefore files pass family).tables.get family =
      (frontendsOf files).tablesAfter family pass.earlier := by
  rw [(workspaceBefore_follows files pass family).2.tables]
  congr 1
  cases pass <;> cases family <;> rfl

/-- The pass itself goes through as well. -/
theorem runPass_workspaceBefore (files : List SourceFile) (pass : Pass) (family : Family) :
    ((workspaceBefore files pass family).runPass (frontendsOf files) family pass).fault = none ∧
    ((workspaceBefore files pass family).runPass (frontendsOf files) family pass).state.Follows
      (frontendsOf files)
      ((passOrder.takeWhile fun slot => slot ≠ (pass, family)) ++ [(pass, family)]) := by
  obtain ⟨clean, -⟩ := workspaceBefore_follows files pass family
  have split : Workspace.empty.runPasses (frontendsOf files)
      ((passOrder.takeWhile fun slot => slot ≠ (pass, family)) ++ [(pass, family)]) =
        (workspaceBefore files pass family).runPass (frontendsOf files) family pass :=
    Progress.through_append_of_done _ [(pass, family)] clean
  rw [← split]
  refine runPasses_frontendsOf files ?_ ?_ <;> cases pass <;> cases family <;> rfl

theorem contribution_eq (files : List SourceFile) (pass : Pass) (family : Family) :
    contribution files pass family = (frontendsOf files).links family pass := by
  have before := (workspaceBefore_follows files pass family).2
  have grown := (runPass_workspaceBefore files pass family).2.edges
  rw [List.flatMap_append, ← before.edges, List.flatMap_singleton] at grown
  have size : (workspaceBefore files pass family).graph.edges.size =
      (workspaceBefore files pass family).graph.edges.toList.length := rfl
  unfold contribution
  simp only [size]
  exact (congrArg _ grown).trans List.drop_left

/-- The edges of a build are those of its passes, and within a pass those of one family after the
other. -/
theorem buildGraph_edges (files : List SourceFile) :
    ∃ result, buildGraph files = .ok result ∧
      result.edges = Pass.all.flatMap fun pass => (frontendsOf files).links .python pass ++
        (frontendsOf files).links .javaScript pass ++ (frontendsOf files).links .swift pass := by
  obtain ⟨finished, follows⟩ := runPasses_frontendsOf files inOrder_passOrder (by decide)
  have done : (buildWorkspace files).fault = none := finished
  delta buildGraph
  simp only [done]
  refine ⟨_, rfl, follows.edges.trans ?_⟩
  simp [passOrder, Pass.all, Family.all]

end SourceAtlas
