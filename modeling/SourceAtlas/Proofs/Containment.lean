/- Containment reaches every declaration: a file contains its top-level declarations and its
blueprints, and the types among them contain their members. The type of a member may stand in
another file than the member itself, but some file contains it. -/
import SourceAtlas.Proofs.Origin
import SourceAtlas.Proofs.References

namespace SourceAtlas

open Step

/-- Some file contains the node with an id. -/
def Step.Held (steps : List Step) (id : String) : Prop :=
  ∃ root, Identifier.isFile root = true ∧ .connect ⟨root, id, .contains, .high⟩ ∈ steps

/-- The id has been entered as that of a top-level declaration. -/
def Step.Entered (steps : List Step) (id : String) : Prop :=
  ∃ home name isType, .register (.symbol home name id isType) ∈ steps

/-- What a step puts under a file or an entered type is joined to it among the steps. -/
def Step.Anchored (steps : List Step) : Step → Prop
  | .declare node => Held steps node.id ∨
      ∃ owner, Entered steps owner ∧ .connect ⟨owner, node.id, .contains, .high⟩ ∈ steps
  | .adopt _ container _ => Identifier.isFile container = true
  | .register (.symbol _ _ id _) => Held steps id
  | _ => True

namespace Step.Anchored

variable {α : Type} {steps : List Step}

theorem mono {more : List Step} (inside : steps ⊆ more) {step : Step}
    (anchored : step.Anchored steps) :
    step.Anchored more := by
  have held {id : String} (held : Held steps id) : Held more id := by
    obtain ⟨root, form, joined⟩ := held
    exact ⟨root, form, inside joined⟩
  cases step with
  | declare node =>
      rcases anchored with own | ⟨owner, ⟨home, name, isType, entered⟩, joined⟩
      · exact .inl (held own)
      · exact .inr ⟨owner, ⟨home, name, isType, inside entered⟩, inside joined⟩
  | register entry =>
      cases entry with
      | symbol home name id isType => exact held anchored
      | _ => trivial
  | adopt node container confidence => exact anchored
  | _ => trivial

theorem symbol (unit : SourceUnit α) (declaration : Declaration) (kind : NodeKind)
    (inside : unit.symbolSteps declaration kind ⊆ steps) :
    Each (Anchored steps) (unit.symbolSteps declaration kind) := by
  have held : Held steps (unit.symbolId declaration.name) := by
    refine ⟨unit.fileId, Identifier.startsWith_lead .file .file unit.path, inside ?_⟩
    exact List.mem_append_left _ (List.mem_cons_of_mem _ List.mem_cons_self)
  exact .cons (.inl held) (.cons trivial (.cons held .nil))

theorem method (unit : SourceUnit α) {ownerId : String} (ownerName : String)
    (declaration : Declaration) (entered : Entered steps ownerId)
    (inside : unit.methodSteps ownerId ownerName declaration ⊆ steps) :
    Each (Anchored steps) (unit.methodSteps ownerId ownerName declaration) := by
  refine .cons (.inr ⟨ownerId, entered, inside ?_⟩) (.cons trivial (.cons trivial .nil))
  exact List.mem_cons_of_mem _ List.mem_cons_self

theorem methods (unit : SourceUnit α) {β : Type} {ownerId : String} (ownerName : String)
    (list : List β) (member : β → Declaration) (entered : Entered steps ownerId)
    (inside : (list.flatMap fun method => unit.methodSteps ownerId ownerName (member method)) ⊆
      steps) :
    Each (Anchored steps) (list.flatMap fun method =>
      unit.methodSteps ownerId ownerName (member method)) := by
  refine .flatMap fun one listed => method unit ownerName (member one) entered fun step within => ?_
  exact inside (List.mem_flatMap.mpr ⟨one, listed, within⟩)

/-- A type with its members is anchored in itself. -/
theorem type (unit : SourceUnit α) {β : Type} (declaration : Declaration) (list : List β)
    (member : β → Declaration) :
    let part := unit.symbolSteps declaration .class ++ list.flatMap fun method =>
      unit.methodSteps (unit.symbolId declaration.name) declaration.name (member method)
    Each (Anchored part) part := by
  refine .append (symbol unit declaration .class (List.subset_append_left _ _)) ?_
  refine methods unit declaration.name list member ?_ (List.subset_append_right _ _)
  exact ⟨unit.module, declaration.name, true,
    List.mem_append_left _ (by simp [SourceUnit.symbolSteps])⟩

theorem flatMap {β : Type} {list : List β} {part : β → List Step}
    (each : ∀ item ∈ list, Each (Anchored (part item)) (part item)) :
    Each (Anchored (list.flatMap part)) (list.flatMap part) := by
  refine .flatMap fun item listed => (each item listed).mono fun step anchored => anchored.mono ?_
  exact fun other within => List.mem_flatMap.mpr ⟨item, listed, within⟩

theorem append {first second : List Step} (start : Each (Anchored first) first)
    (rest : Each (Anchored second) second) :
    Each (Anchored (first ++ second)) (first ++ second) :=
  .append (start.mono fun _ anchored => anchored.mono (List.subset_append_left _ _))
    (rest.mono fun _ anchored => anchored.mono (List.subset_append_right _ _))

end Step.Anchored

theorem Python.definitionSteps_anchored (unit : SourceUnit Python.Outline) :
    Each (Anchored (Python.definitionSteps unit)) (Python.definitionSteps unit) := by
  refine Anchored.append (Anchored.append (Anchored.flatMap fun blueprint _ => ?_)
    (Anchored.flatMap fun cls _ => ?_))
    (Anchored.flatMap fun function _ => ?_)
  · exact .cons (Identifier.startsWith_lead .file .file unit.path) (.cons trivial .nil)
  · exact Anchored.type unit cls.declaration cls.methods Python.Function.declaration
  · exact Anchored.symbol unit function.declaration .function (List.Subset.refl _)

theorem JavaScript.definitionSteps_anchored (unit : SourceUnit JavaScript.Outline) :
    Each (Anchored (JavaScript.definitionSteps unit)) (JavaScript.definitionSteps unit) := by
  refine Anchored.append (Anchored.flatMap fun cls _ => ?_) (Anchored.flatMap fun function _ => ?_)
  · exact Anchored.type unit cls.declaration cls.methods JavaScript.Function.declaration
  · exact Anchored.symbol unit function.declaration .function (List.Subset.refl _)

namespace Swift

theorem primarySteps_anchored (unit : SourceUnit Outline) :
    Each (Anchored (primarySteps unit)) (primarySteps unit) :=
  Anchored.append
    (Anchored.flatMap fun function _ =>
      Anchored.symbol unit function.declaration .function (List.Subset.refl _))
    (Anchored.flatMap fun type _ =>
      Anchored.symbol unit type.declaration .class (List.Subset.refl _))

theorem memberScript_anchored {steps : List Step} {unit : SourceUnit Outline}
    {type : TypeDeclaration} {tables : SymbolTables}
    (entered : Entered steps (owner unit tables type).1)
    (inside : memberScript unit type tables ⊆ steps) :
    Each (Anchored steps) (memberScript unit type tables) := by
  have parts : memberScript unit type tables =
      (owner unit tables type).2 ++ type.methods.flatMap fun method =>
    unit.methodSteps (owner unit tables type).1 type.declaration.name method.declaration := rfl
  rw [parts] at inside ⊢
  obtain ⟨made, members⟩ := List.append_subset.mp inside
  refine .append ?_ (Anchored.methods unit _ type.methods Function.declaration entered members)
  rcases owner_cases unit type tables with ⟨-, own⟩ | ⟨-, _, -, own⟩ | ⟨-, -, own⟩
  · rw [own]
    exact .nil
  · rw [own]
    exact .nil
  · rw [own] at made ⊢
    exact Anchored.symbol unit type.declaration .class made

theorem members_anchored {steps : List Step} {tables : SymbolTables}
    {slots : List (SourceUnit Outline × TypeDeclaration)}
    (entered : ∀ placed ∈ place tables slots, Entered steps placed.ownerId)
    (inside : Script.stepsFrom tables (memberScripts slots) ⊆ steps) :
    Each (Anchored steps) (Script.stepsFrom tables (memberScripts slots)) := by
  -- The steps of the whole pass stay fixed: the type of a slot may have been entered before all
  -- slots.
  induction slots generalizing tables with
  | nil => exact .nil
  | cons slot rest ih =>
      obtain ⟨here, later⟩ := List.append_subset.mp inside
      refine .append (memberScript_anchored (entered _ List.mem_cons_self) here) (ih ?_ later)
      exact fun placed member => entered placed (List.mem_cons_of_mem _ member)

/-- The type that members go to is entered somewhere in the pass, perhaps for another file. -/
theorem steps_anchored {frontends : Frontends} {units : List (SourceUnit Outline)}
    (suitable : frontends.Suitable) (scripted : frontends .swift = scripts units) :
    Each (Anchored (frontends.steps .swift .definitions))
      (frontends.steps .swift .definitions) := by
  have entered : ∀ placed ∈ placements (frontends.tablesAfter .swift
      Pass.definitions.earlier) units,
      Entered (frontends.steps .swift .definitions) placed.ownerId := by
    intro placed member
    obtain ⟨home, listed⟩ := registered_placed suitable scripted member
    obtain ⟨step, inside, same⟩ := List.mem_filterMap.mp listed
    cases step with
    | register entry =>
        cases same
        exact ⟨home, placed.type.declaration.name, true, inside⟩
    | _ => cases same
  rw [steps_definitions scripted] at entered ⊢
  refine .append ?_ (members_anchored entered (List.subset_append_right _ _))
  refine (Anchored.flatMap fun unit _ => primarySteps_anchored unit).mono fun step anchored => ?_
  exact anchored.mono (List.subset_append_left _ _)

end Swift

theorem frontendsOf_anchored (files : List SourceFile) (family : Family) :
    let steps := (frontendsOf files).steps family .definitions
    Each (Anchored steps) steps := by
  cases family with
  | python =>
      have fixed : (frontendsOf files).steps .python .definitions = _ :=
        Script.stepsFrom_fixed _ _ _
      rw [fixed]
      exact Anchored.flatMap fun unit _ => Python.definitionSteps_anchored unit
  | javaScript =>
      have fixed : (frontendsOf files).steps .javaScript .definitions = _ :=
        Script.stepsFrom_fixed _ _ _
      rw [fixed]
      exact Anchored.flatMap fun unit _ => JavaScript.definitionSteps_anchored unit
  | swift => exact Swift.steps_anchored (frontendsOf_suitable files) rfl

/-- The first of the steps that adopt an id draws its edge, unless the id was adopted before. -/
theorem Step.drawn_adopt {steps : List Step} {node : SymbolNode} {container : String}
    {confidence : Confidence} (member : .adopt node container confidence ∈ steps)
    (taken : List String) :
    node.id ∈ taken ∨ ∃ other home trust, .adopt other home trust ∈ steps ∧
      ⟨home, node.id, .contains, trust⟩ ∈ drawn taken steps := by
  -- Along the list the taken ids grow, so the edge is drawn by the first step that finds the id
  -- free.
  induction steps generalizing taken with
  | nil => cases member
  | cons step rest ih =>
      by_cases old : node.id ∈ taken
      · exact .inl old
      refine .inr ?_
      by_cases here : ∃ other home trust, step = .adopt other home trust ∧ other.id = node.id
      · obtain ⟨other, home, trust, rfl, same⟩ := here
        refine ⟨other, home, trust, List.mem_cons_self, List.mem_append_left _ ?_⟩
        rw [← same] at old ⊢
        simp [draw, old]
      · have later : .adopt node container confidence ∈ rest := by
          rcases List.mem_cons.mp member with rfl | later
          · exact absurd ⟨node, container, confidence, rfl, rfl⟩ here
          · exact later
        have still : node.id ∉ step.adopted taken := by
          cases step with
          | adopt other home trust =>
              have different : node.id ≠ other.id :=
                fun same => here ⟨other, home, trust, rfl, same.symm⟩
              simp [adopted, different, old]
          | _ => exact old
        rcases ih later (step.adopted taken) with before | ⟨other, home, trust, listed, edge⟩
        · exact absurd before still
        · exact ⟨other, home, trust, List.mem_cons_of_mem _ listed, List.mem_append_right _ edge⟩

/-- One node contains another in a finished graph. -/
def GraphResult.Contains (result : GraphResult) (outer inner : String) : Prop :=
  ∃ edge ∈ result.edges, edge.kind = .contains ∧ edge.source = outer ∧ edge.target = inner

section Build

variable {files : List SourceFile} {result : GraphResult}

theorem contains_of_connect (built : buildGraph files = .ok result) {family : Family}
    {outer inner : String} {confidence : Confidence}
    (asked : .connect ⟨outer, inner, .contains, confidence⟩ ∈
      (frontendsOf files).steps family .definitions) :
    result.Contains outer inner :=
  ⟨_, mem_edges_of_mem_links built (mem_drawn_of_connect asked []), rfl, rfl, rfl⟩

theorem GraphResult.Contains.joined (built : buildGraph files = .ok result) {outer inner : String}
    (contains : result.Contains outer inner) :
    (∃ node, result.nodes[outer]? = some node) ∧ ∃ node, result.nodes[inner]? = some node := by
  obtain ⟨edge, drawn, -, rfl, rfl⟩ := contains
  exact joined_of_mem_edges built drawn

theorem file_of_contains (built : buildGraph files = .ok result) {outer inner : String}
    (contains : result.Contains outer inner) (form : Identifier.isFile outer = true) :
    ∃ file, result.nodes[outer]? = some file ∧ file.kind = .file := by
  obtain ⟨⟨file, found⟩, _⟩ := contains.joined built
  exact ⟨file, found, (buildGraph_isFile_iff built found).mpr form⟩

theorem held_contained (built : buildGraph files = .ok result) {family : Family} {id : String}
    (held : Held ((frontendsOf files).steps family .definitions) id) :
    ∃ root file, result.nodes[root]? = some file ∧ file.kind = .file ∧ result.Contains root id := by
  obtain ⟨root, form, asked⟩ := held
  have contains := contains_of_connect built asked
  obtain ⟨file, found, kind⟩ := file_of_contains built contains form
  exact ⟨root, file, found, kind, contains⟩

/-- Every declaration is reached from a file by containment, directly or through its type. -/
theorem buildGraph_contained (files : List SourceFile) :
    ∃ result, buildGraph files = .ok result ∧ ∀ id node, result.nodes[id]? = some node →
      node.kind ∈ [.class, .function, .method, .blueprint] →
        ∃ root file, result.nodes[root]? = some file ∧ file.kind = .file ∧
          (result.Contains root id ∨ ∃ middle,
            result.Contains root middle ∧ result.Contains middle id) := by
  obtain ⟨graph, sound, built⟩ := buildGraph_sound files
  refine ⟨_, built, fun id node found kind => ?_⟩
  obtain rfl : node.id = id := sound.keyed found
  obtain ⟨pass, family, step, member, made⟩ := buildGraph_origin built found
  have makes := frontendsOf_makes files family pass step member
  have anchored := frontendsOf_anchored files family
  cases step with
  | declare other =>
      cases made
      rcases makes with ⟨-, isFile, -⟩ | ⟨rfl, -⟩
      · simp [isFile] at kind
      rcases anchored _ member with held | ⟨owner, ⟨home, name, isType, entered⟩, asked⟩
      · obtain ⟨root, file, stored, isFile, contains⟩ := held_contained built held
        exact ⟨root, file, stored, isFile, .inl contains⟩
      · -- The owner is entered as a declaration of its own, so a file contains it.
        obtain ⟨root, file, stored, isFile, contains⟩ := held_contained built (anchored _ entered)
        exact ⟨root, file, stored, isFile, .inr ⟨owner, contains, contains_of_connect built asked⟩⟩
  | adopt other container confidence =>
      cases made
      obtain ⟨rfl, -⟩ := makes
      rcases drawn_adopt member [] with nothing | ⟨first, home, trust, listed, drawn⟩
      · cases nothing
      · have contains : GraphResult.Contains _ home node.id :=
          ⟨_, mem_edges_of_mem_links built drawn, rfl, rfl, rfl⟩
        obtain ⟨file, stored, isFile⟩ := file_of_contains built contains (anchored _ listed)
        exact ⟨home, file, stored, isFile, .inl contains⟩
  | mention name =>
      cases made
      simp [externalNode] at kind
  | _ => cases made

end Build

end SourceAtlas
