/- The last pass: which tables its scripts see, that these still know every declaration under its
id, and what the pass draws for each reference. -/
import SourceAtlas.Proofs.Passes

namespace SourceAtlas

@[simp] theorem Identifier.symbol_inj {a b : String} :
    Identifier.symbol a = Identifier.symbol b ↔ a = b :=
  String.append_right_inj _

@[simp] theorem Identifier.file_inj {a b : String} :
    Identifier.file a = Identifier.file b ↔ a = b :=
  String.append_right_inj _

/-- Entries of the forms that the passes of a family make. -/
def Regular (family : Family) (steps : List Step) : Prop :=
  ∀ entry ∈ Step.entries steps, ∃ pass, Registration.Suits family pass entry

theorem Step.AllSuit.regular {family : Family} {pass : Pass} {steps : List Step}
    (suits : AllSuit family pass steps) :
    Regular family steps :=
  fun _ member => ⟨pass, suits.entry member⟩

theorem Regular.append {family : Family} {first second : List Step} (start : Regular family first)
    (rest : Regular family second) : Regular family (first ++ second) := by
  intro entry member
  rw [Step.entries_append] at member
  exact (List.mem_append.mp member).elim (start entry) (rest entry)

section Lookups

variable {family : Family} {steps : List Step} {module name id : String} {isType : Bool}

theorem localId?_of_suits {pass : Pass} {entry : Registration} (suits : entry.Suits family pass)
    (hit : entry.localId? module name = some id) :
    id = Identifier.symbol (Identifier.qualify module name) := by
  cases entry with
  | symbol other given id isType =>
      simp only [Registration.localId?, Option.ite_none_right_eq_some, Option.some.injEq] at hit
      obtain ⟨⟨rfl, rfl⟩, rfl⟩ := hit
      cases pass <;> first | exact suits | cases suits
  | _ => cases hit

theorem local?_after (regular : Regular family steps)
    (member : .symbol module name id isType ∈ Step.entries steps) :
    (({} : SymbolTables).after steps).local? module name = some id := by
  have decided {entry : Registration} (inside : entry ∈ Step.entries steps) {found : String}
      (hit : entry.localId? module name = some found) :
        found = Identifier.symbol (Identifier.qualify module name) := by
    obtain ⟨pass, suits⟩ := regular entry inside
    exact localId?_of_suits suits hit
  have hits : Registration.localId? module name (.symbol module name id isType) = some id := by
    simp [Registration.localId?]
  exact SymbolTables.look_eq_of_hit _ (fun tables => tables.local? module name)
    (fun tables entry => tables.local?_record entry module name) member hits
    fun other inside found hit => (decided inside hit).trans (decided member hits).symm

theorem classIn?_after (regular : Regular family steps)
    (member : .symbol module name id true ∈ Step.entries steps) :
    (({} : SymbolTables).after steps).classIn? module name = some id := by
  have decided {entry : Registration} (inside : entry ∈ Step.entries steps) {found : String}
      (hit : entry.classId? module name = some found) :
        found = Identifier.symbol (Identifier.qualify module name) := by
    obtain ⟨pass, suits⟩ := regular entry inside
    refine localId?_of_suits suits ?_
    cases entry with
    | symbol other given id isType =>
        cases isType with
        | false => cases hit
        | true => exact hit
    | _ => cases hit
  have hits : Registration.classId? module name (.symbol module name id true) = some id := by
    simp [Registration.classId?]
  exact SymbolTables.look_eq_of_hit _ (fun tables => tables.classIn? module name)
    (fun tables entry => tables.classIn?_record entry module name) member hits
    fun other inside found hit => (decided inside hit).trans (decided member hits).symm

/-- Where no extension makes methods, the id of a method follows from its type. -/
theorem method?_after {typeId : String} (regular : Regular family steps) (plain : family ≠ .swift)
    (member : .method typeId name id ∈ Step.entries steps) :
    (({} : SymbolTables).after steps).method? typeId name = some id := by
  have decided {entry : Registration} (inside : entry ∈ Step.entries steps) {found : String}
      (hit : entry.methodId? typeId name = some found) :
      ∃ type, typeId = Identifier.symbol type ∧
        found = Identifier.symbol (Identifier.qualify type name) := by
    obtain ⟨pass, suits⟩ := regular entry inside
    cases entry with
    | method other given id =>
        simp only [Registration.methodId?, Option.ite_none_right_eq_some, Option.some.injEq] at hit
        obtain ⟨⟨rfl, rfl⟩, rfl⟩ := hit
        cases pass <;> first | exact suits.resolve_left plain | cases suits
    | _ => cases hit
  have hits : Registration.methodId? typeId name (.method typeId name id) = some id := by
    simp [Registration.methodId?]
  refine SymbolTables.look_eq_of_hit _ (fun tables => tables.method? typeId name)
    (fun tables entry => tables.method?_record entry typeId name) member hits
    fun other inside found hit => ?_
  obtain ⟨type, rfl, rfl⟩ := decided member hits
  obtain ⟨again, same, rfl⟩ := decided inside hit
  rw [Identifier.symbol_inj.mp same]

end Lookups

/-- The tables before a pass are the history of the passes before it. -/
theorem Frontends.tablesAfter_earlier (frontends : Frontends) (family : Family) (pass : Pass) :
    frontends.tablesAfter family pass.earlier =
      ({} : SymbolTables).after (pass.earlier.flatMap (frontends.steps family)) := by
  cases pass with
  | files => rfl
  | definitions =>
      rw [Pass.earlier, List.flatMap_singleton]
      rfl
  | imports =>
      simp only [Pass.earlier, List.flatMap_cons, List.flatMap_nil, List.append_nil,
        SymbolTables.after_append]
      rfl
  | relations =>
      simp only [Pass.earlier, List.flatMap_cons, List.flatMap_nil, List.append_nil,
        SymbolTables.after_append]
      rfl

theorem Frontends.earlier_regular {frontends : Frontends} (suitable : frontends.Suitable)
    (family : Family) (passes : List Pass) :
    Regular family (passes.flatMap (frontends.steps family)) := by
  intro entry member
  rw [Step.entries_flatMap] at member
  obtain ⟨pass, _, inside⟩ := List.mem_flatMap.mp member
  exact ⟨pass, (steps_suit suitable family pass).entry inside⟩

/-- The tables that the first half of the last pass sees, and those that it leaves to the second. -/
theorem Frontends.relations_tables {frontends : Frontends} {family : Family}
    (suitable : frontends.Suitable) {bases : List Step}
    (suits : Step.AllSuit family .relations bases) :
    ∃ steps, Regular family steps ∧
      Step.entries (frontends.steps family .definitions) ⊆ Step.entries steps ∧
      (frontends.tablesAfter family Pass.relations.earlier).after bases =
        ({} : SymbolTables).after steps := by
  refine ⟨Pass.relations.earlier.flatMap (frontends.steps family) ++ bases,
    (earlier_regular suitable family _).append suits.regular, ?_, ?_⟩
  · intro entry member
    rw [Step.entries_append, Step.entries_flatMap]
    exact List.mem_append_left _ (List.mem_flatMap.mpr ⟨.definitions, by decide, member⟩)
  · rw [tablesAfter_earlier, SymbolTables.after_append]

/-- What the last pass enters changes the bases alone. -/
theorem Step.AllSuit.after_bases {family : Family} {steps : List Step}
    (suits : AllSuit family .relations steps) (tables : SymbolTables) :
    ∃ bases, tables.after steps = { tables with bases } := by
  have general : ∀ (entries : List Registration) (seen : SymbolTables),
      (∀ entry ∈ entries, Registration.Suits family .relations entry) →
        ∃ bases, entries.foldl SymbolTables.record seen = { seen with bases } := by
    intro entries
    induction entries with
    | nil => exact fun seen _ => ⟨seen.bases, rfl⟩
    | cons entry rest ih =>
        intro seen held
        obtain ⟨bases, same⟩ := ih (seen.record entry) fun other member =>
          held other (by simp [member])
        have own := held entry (by simp)
        cases entry with
        | bases typeId listed =>
            refine ⟨bases, same.trans ?_⟩
            simp only [SymbolTables.record, SymbolTables.recordBases]
            split <;> rfl
        | _ => cases own
  exact general (entries steps) tables fun entry member => suits.entry member

theorem Step.Each.entries_eq_nil {steps : List Step} (calls : Each IsCall steps) :
    entries steps = [] := by
  refine List.filterMap_eq_nil_iff.mpr fun step member => ?_
  have call := calls step member
  cases step with
  | register entry => cases call
  | _ => rfl

/-- The scripts of the last pass: first those for bases, which enter only bases and read none, and
then those for calls, which enter nothing. -/
theorem stepsFrom_relations {α : Type} {units : List α} {base call : α → Script} {family : Family}
    (tables : SymbolTables)
    (blind : ∀ unit seen bases, base unit { seen with bases } = base unit seen)
    (suits : ∀ unit ∈ units, ∀ seen, Step.AllSuit family .relations (base unit seen))
    (called : ∀ unit seen, Step.Each Step.IsCall (call unit seen)) :
    Script.stepsFrom tables (units.map base ++ units.map call) =
      (units.flatMap fun unit => base unit tables) ++ units.flatMap fun unit =>
        call unit (tables.after (units.flatMap fun unit => base unit tables)) := by
  -- Later scripts see more bases than earlier ones, and no other difference.
  have bases : Script.stepsFrom tables (units.map base) = units.flatMap fun unit =>
      base unit tables := by
    refine Script.stepsFrom_map tables (fun seen => ∃ bases, seen = { tables with bases })
      ⟨tables.bases, rfl⟩ ?_ ?_
    · rintro unit _ _ ⟨bases, rfl⟩
      exact blind unit tables bases
    · rintro unit member _ ⟨bases, rfl⟩
      obtain ⟨more, same⟩ := (suits unit member tables).after_bases { tables with bases }
      exact ⟨more, same⟩
  have calls (seen : SymbolTables) :
      Script.stepsFrom seen (units.map call) = units.flatMap fun unit => call unit seen := by
    refine Script.stepsFrom_map seen (fun later => later = seen) rfl ?_ ?_
    · rintro unit _ _ rfl
      rfl
    · rintro unit _ later rfl
      rw [SymbolTables.after, (called unit later).entries_eq_nil]
      rfl
  rw [Script.stepsFrom_append, bases, calls]

/-- The last pass of a family: the bases of all units, and then their calls. -/
theorem Frontends.steps_relations {α : Type} {frontends : Frontends} {family : Family}
    {units : List α} {base call : α → Script} (suitable : frontends.Suitable)
    (scripts : frontends family .relations = units.map base ++ units.map call)
    (blind : ∀ unit seen bases, base unit { seen with bases } = base unit seen)
    (called : ∀ unit seen, Step.Each Step.IsCall (call unit seen)) :
    let tables := frontends.tablesAfter family Pass.relations.earlier
    let bases := units.flatMap fun unit => base unit tables
    Step.AllSuit family .relations bases ∧
      frontends.steps family .relations = bases ++ units.flatMap fun unit =>
        call unit (tables.after bases) := by
  intro tables bases
  have suits : ∀ unit ∈ units, ∀ seen, Step.AllSuit family .relations (base unit seen) := by
    intro unit member seen
    refine suitable family .relations (base unit) ?_ seen
    rw [scripts]
    exact List.mem_append_left _ (List.mem_map_of_mem member)
  refine ⟨Step.Each.flatMap fun unit member => suits unit member tables, ?_⟩
  rw [steps, scripts]
  exact stepsFrom_relations tables blind suits called

/-- The kinds of edges by the passes that draw them. -/
theorem Frontends.mem_links {frontends : Frontends} (suitable : frontends.Suitable)
    {family : Family} {pass : Pass} {edge : GraphEdge}
    (member : edge ∈ frontends.links family pass) : pass.links edge.kind = true := by
  have general : ∀ (steps : List Step) (taken : List String), Step.AllSuit family pass steps →
      edge ∈ Step.drawn taken steps → pass.links edge.kind = true := by
    intro steps
    induction steps with
    | nil => intro taken _ inside; cases inside
    | cons step rest ih =>
        intro taken suits inside
        have own := suits step (by simp)
        rcases List.mem_append.mp inside with here | later
        · cases step with
          | connect other =>
              rw [List.mem_singleton.mp here]
              exact own
          | adopt node container confidence =>
              obtain ⟨-, rfl, -⟩ := own
              simp only [Step.draw] at here
              split at here
              · cases here
              · rw [List.mem_singleton.mp here]
                rfl
          | _ => cases here
        · exact ih _ (fun other listed => suits other (by simp [listed])) later
  exact general _ [] (steps_suit suitable family pass) member

section Filters

variable {frontends : Frontends} {family : Family} {pass : Pass} {wanted : GraphEdge → Bool}

theorem Frontends.filter_links (linked : ∀ edge, wanted edge = true → edge.kind ≠ .contains) :
    (frontends.links family pass).filter wanted =
      (Step.edges (frontends.steps family pass)).filter wanted :=
  Step.filter_drawn linked [] _

theorem Frontends.filter_links_eq_nil (suitable : frontends.Suitable)
    (other : ∀ edge, wanted edge = true → pass.links edge.kind = false) :
    (frontends.links family pass).filter wanted = [] := by
  refine List.filter_eq_nil_iff.mpr fun edge member asked => ?_
  cases (mem_links suitable member).symm.trans (other edge asked)

end Filters

end SourceAtlas
