/- The type of a declaration is looked up twice: when its members are attached, in tables that still
grow, and when its bases and calls are followed, in the tables that this left. Both find the same
type. -/
import SourceAtlas.Proofs.References

namespace SourceAtlas

theorem Progress.done_of_append {α β : Type} {carry : α → β → Progress α} {start : α}
    (first second : List β) (done : (Progress.through carry start (first ++ second)).fault = none) :
    (Progress.through carry start first).fault = none := by
  induction first generalizing start with
  | nil => rfl
  | cons item rest ih =>
      rw [List.cons_append] at done
      obtain ⟨here, onward⟩ := Progress.through_cons_of_done done
      rw [onward] at done
      have split : Progress.through carry start (item :: rest) =
          Progress.through carry (carry start item).state rest :=
        Progress.through_append_of_done [item] rest here
      rw [split]
      exact ih done

section During

variable (files : List SourceFile) (pass : Pass) (family : Family) (count : Nat)

/-- The tables of a family in the middle of a pass of a build, after a number of its scripts. -/
def tablesDuring : SymbolTables :=
  let before := workspaceBefore files pass family
  (Draft.perform ⟨before.graph, before.tables.get family⟩
    ((frontendsOf files family pass).take count)).state.tables

def stepsDuring : List Step :=
  Script.stepsFrom ((frontendsOf files).tablesAfter family pass.earlier)
    ((frontendsOf files family pass).take count)

theorem tablesDuring_eq :
    tablesDuring files pass family count =
      ((frontendsOf files).tablesAfter family pass.earlier).after
        (stepsDuring files pass family count) := by
  obtain ⟨taken, held, -⟩ := (workspaceBefore_follows files pass family).2.adopted
  have whole := (runPass_workspaceBefore files pass family).1
  rw [Workspace.runPass, ← List.take_append_drop count (frontendsOf files family pass)] at whole
  have took := Draft.perform_took (fun script listed tables step inside =>
    (frontendsOf_suitable files family pass script (List.mem_of_mem_take listed) tables step
      inside).tidy) held
    (Progress.done_of_append _ _ whole)
  rw [tablesDuring, stepsDuring, ← workspaceBefore_tables]
  exact took.tables

theorem stepsDuring_suit : Step.AllSuit family pass (stepsDuring files pass family count) := by
  intro step member
  obtain ⟨script, listed, seen, inside⟩ := Script.mem_stepsFrom member
  exact frontendsOf_suitable files family pass script (List.mem_of_mem_take listed) seen step inside

end During

namespace Swift

def unitsOf (files : List SourceFile) : List (SourceUnit Outline) :=
  Frontends.units (moduleNames files) Outline.ofFile .swift files

theorem mem_place (tables : SymbolTables)
    (earlier later : List (SourceUnit Outline × TypeDeclaration))
    (slot : SourceUnit Outline × TypeDeclaration) :
    ⟨slot.1, slot.2, (owner slot.1 (tables.after (Script.stepsFrom tables (memberScripts earlier)))
      slot.2).1⟩ ∈
      place tables (earlier ++ slot :: later) := by
  induction earlier generalizing tables with
  | nil => exact List.mem_cons_self
  | cons first rest ih =>
      have placed := ih (tables.after (memberScript first.1 first.2 tables))
      rw [← SymbolTables.after_append] at placed
      exact List.mem_cons_of_mem _ placed

variable (files : List SourceFile) (position : Fin (typesOf (unitsOf files)).length)

/-- The members of a declaration are attached when all free functions and types are entered, and the
members of the declarations before it. -/
theorem tablesDuring_members :
    let start := (frontendsOf files).tablesAfter .swift Pass.definitions.earlier
    let primary := start.after ((unitsOf files).flatMap primarySteps)
    tablesDuring files .definitions .swift ((unitsOf files).length + position) =
      primary.after (Script.stepsFrom primary
        (memberScripts ((typesOf (unitsOf files)).take position))) := by
  intro start primary
  have taken : (frontendsOf files .swift .definitions).take ((unitsOf files).length + position) =
      ((unitsOf files).map fun unit => Script.fixed (primarySteps unit)) ++
        memberScripts ((typesOf (unitsOf files)).take position) := by
    have scripted : frontendsOf files .swift .definitions = scripts (unitsOf files) .definitions :=
      rfl
    have length : ((unitsOf files).map fun unit => Script.fixed (primarySteps unit)).length =
        (unitsOf files).length :=
      List.length_map _
    rw [scripted, scripts_definitions, ← length, List.take_length_add_append, memberScripts,
      memberScripts, List.map_take]
  rw [tablesDuring_eq, stepsDuring, taken, Script.stepsFrom_append, Script.stepsFrom_fixed,
    SymbolTables.after_append]

/-- The file and the declaration whose members are attached at a position. -/
def unitAt : SourceUnit Outline := ((typesOf (unitsOf files)).get position).1

def typeAt : TypeDeclaration := ((typesOf (unitsOf files)).get position).2

/-- The tables when it is the turn of the declaration. -/
def tablesAt : SymbolTables :=
  tablesDuring files .definitions .swift ((unitsOf files).length + position)

/-- The type to which the members of the declaration are attached. -/
def attachedTo : String :=
  (owner (unitAt files position) (tablesAt files position) (typeAt files position)).1

theorem attachedTo_placed :
    ⟨unitAt files position, typeAt files position, attachedTo files position⟩ ∈
    placements ((frontendsOf files).tablesAfter .swift Pass.definitions.earlier)
      (unitsOf files) := by
  have split : typesOf (unitsOf files) = (typesOf (unitsOf files)).take position ++
      (unitAt files position, typeAt files position) ::
        (typesOf (unitsOf files)).drop (position + 1) := by
    have onward : (typesOf (unitsOf files)).drop position =
        (unitAt files position, typeAt files position) ::
          (typesOf (unitsOf files)).drop (position + 1) :=
      List.drop_eq_getElem_cons position.isLt
    rw [← onward, List.take_append_drop]
  have listed := mem_place (((frontendsOf files).tablesAfter .swift Pass.definitions.earlier).after
    ((unitsOf files).flatMap primarySteps)) ((typesOf (unitsOf files)).take position)
    ((typesOf (unitsOf files)).drop (position + 1)) (unitAt files position, typeAt files position)
  rw [← split, ← tablesDuring_members] at listed
  exact listed

theorem ownerId?_attachedTo (moment : Nat) :
    ownerId? (tablesDuring files .relations .swift moment) (unitAt files position).module
      (typeAt files position) =
      some (attachedTo files position) := by
  rw [tablesDuring_eq]
  exact ownerId?_placed (frontendsOf_suitable files) rfl
    (stepsDuring_suit files .relations .swift moment)
    (attachedTo_placed files position)

/-- At every moment of the last pass, the type under which a declaration is looked up is the one to
which its members were attached, so that its bases and the calls of its members are followed from
there. -/
theorem ownerId?_eq_owner (moment : Nat) :
    (frontendsOf files .swift .definitions)[(unitsOf files).length + position]? =
      some (memberScript (unitAt files position) (typeAt files position)) ∧
    Step.entries (memberScript (unitAt files position) (typeAt files position)
      (tablesAt files position)) =
      Step.entries (owner (unitAt files position) (tablesAt files position)
        (typeAt files position)).2 ++
        memberEntries (unitAt files position) (typeAt files position) (attachedTo files position) ∧
    ownerId? (tablesDuring files .relations .swift moment) (unitAt files position).module
      (typeAt files position) =
      some (attachedTo files position) ∧
    baseSteps (attachedTo files position) ((typeAt files position).bases.map
        (resolveBase (tablesDuring files .relations .swift moment) (unitAt files position).module))
        ⊆
      baseScript (unitAt files position) (tablesDuring files .relations .swift moment) ∧
    typeCallSteps (unitAt files position) (tablesDuring files .relations .swift moment)
      (typeAt files position) =
      (typeAt files position).methods.flatMap fun method => method.calls.flatMap fun callee =>
        Step.link ((unitAt files position).memberId (typeAt files position).declaration.name
          method.declaration.name)
          (resolveCall (tablesDuring files .relations .swift moment) (unitAt files position).module
            (some (attachedTo files position)) callee) .calls := by
  have found := ownerId?_attachedTo files position moment
  obtain ⟨-, declared⟩ := mem_placements (attachedTo_placed files position)
  refine ⟨?_, entries_memberScript (unitAt files position) (typeAt files position) _, found, ?_, ?_⟩
  · have scripted : frontendsOf files .swift .definitions = scripts (unitsOf files) .definitions :=
      rfl
    rw [scripted, scripts_definitions, List.getElem?_append_right (by simp), List.length_map,
      Nat.add_sub_cancel_left, memberScripts, List.getElem?_map]
    simp [unitAt, typeAt]
  · intro step member
    refine List.mem_flatMap.mpr ⟨typeAt files position, declared, ?_⟩
    rw [found]
    exact member
  · rw [typeCallSteps, found]

end Swift

end SourceAtlas
