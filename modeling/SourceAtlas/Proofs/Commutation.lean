/- Entries that concern different modules, types and paths commute, and so the tables that several
files lead to do not depend on the order of the files. -/
import SourceAtlas.Proofs.Trace

namespace SourceAtlas

/-- Two entries of which each leaves alone what the other changes. Candidates for a name across all
modules are sets, so they need no care. -/
structure Registration.Apart (first second : Registration) : Prop where
  modules : ∀ module, first.module? = some module → second.module? ≠ some module
  types : ∀ type, first.type? = some type → second.type? ≠ some type
  bases : ∀ type, first.basesFor type = [] ∨ second.basesFor type = []
  paths : ∀ path, first.moduleAt? path = none ∨ second.moduleAt? path = none

attribute [ext] SymbolTables

namespace SymbolTables

variable (tables : SymbolTables)

theorem methods_getD_record (entry : Registration) (query : String) :
    (tables.record entry).methods.getD query ∅ =
      if entry.type? = some query then entry.editMethods (tables.methods.getD query ∅)
      else tables.methods.getD query ∅ := by
  rw [Std.ExtTreeMap.getD_eq_getD_getElem?, methods_record]
  split
  · rfl
  · rw [← Std.ExtTreeMap.getD_eq_getD_getElem?]

theorem bases_getD_record (entry : Registration) (query : String) :
    (tables.record entry).bases.getD query [] =
      tables.bases.getD query [] ++ entry.basesFor query := by
  rw [Std.ExtTreeMap.getD_eq_getD_getElem?, bases_record]
  split
  · next silent => rw [silent, List.append_nil, ← Std.ExtTreeMap.getD_eq_getD_getElem?]
  · rfl

theorem insert_comm (ids : TextSet) (first second : String) :
    (ids.insert first).insert second = (ids.insert second).insert first := by
  refine Std.ExtTreeSet.ext_mem fun id => ?_
  simp only [Std.ExtTreeSet.mem_insert]
  exact or_left_comm

theorem record_comm {first second : Registration} (apart : first.Apart second) :
    (tables.record first).record second = (tables.record second).record first := by
  have modules : ((tables.record first).record second).modules =
      ((tables.record second).record first).modules := by
    refine Std.ExtTreeMap.ext_getElem? fun query => ?_
    simp only [modules_record, scope_record]
    by_cases one : first.module? = some query
    · have other := apart.modules query one
      simp [one, other]
    · simp [one]
  have methods : ((tables.record first).record second).methods =
      ((tables.record second).record first).methods := by
    refine Std.ExtTreeMap.ext_getElem? fun query => ?_
    simp only [methods_record, methods_getD_record]
    by_cases one : first.type? = some query
    · have other := apart.types query one
      simp [one, other]
    · simp [one]
  have bases : ((tables.record first).record second).bases =
      ((tables.record second).record first).bases := by
    refine Std.ExtTreeMap.ext_getElem? fun query => ?_
    simp only [bases_record, bases_getD_record]
    rcases apart.bases query with silent | silent <;> simp [silent]
  have global : ((tables.record first).record second).global =
      ((tables.record second).record first).global := by
    refine Std.ExtTreeMap.ext_getElem? fun query => ?_
    cases one : first.globalId? query <;> cases other : second.globalId? query <;>
      simp only [global_record, Std.ExtTreeMap.getD_eq_getD_getElem?, one, other, Option.getD_some]
    rw [insert_comm]
  have globalTypes : ((tables.record first).record second).globalTypes =
      ((tables.record second).record first).globalTypes := by
    refine Std.ExtTreeMap.ext_getElem? fun query => ?_
    cases one : first.globalTypeId? query <;> cases other : second.globalTypeId? query <;>
      simp only [globalTypes_record, Std.ExtTreeMap.getD_eq_getD_getElem?, one, other,
        Option.getD_some]
    rw [insert_comm]
  have fileModules : ((tables.record first).record second).fileModules =
      ((tables.record second).record first).fileModules := by
    refine Std.ExtTreeMap.ext_getElem? fun query => ?_
    simp only [fileModules_record]
    rcases apart.paths query with silent | silent <;> simp [silent]
  exact SymbolTables.ext modules methods bases global globalTypes fileModules

/-- Two histories that keep apart commute as wholes. -/
theorem foldl_record_comm {first second : List Registration}
    (apart : ∀ one ∈ first, ∀ other ∈ second, one.Apart other) :
    second.foldl record (first.foldl record tables) =
      first.foldl record (second.foldl record tables) := by
  have past (entry : Registration) (keeps : ∀ other ∈ second, entry.Apart other)
      (tables : SymbolTables) :
      second.foldl record (tables.record entry) = (second.foldl record tables).record entry := by
    clear apart
    induction second generalizing tables with
    | nil => rfl
    | cons other rest ih =>
        rw [List.foldl_cons, List.foldl_cons, tables.record_comm (keeps other (by simp))]
        exact ih (fun later member => keeps later (by simp [member])) _
  induction first generalizing tables with
  | nil => rfl
  | cons entry rest ih =>
      rw [List.foldl_cons, List.foldl_cons, ih _ fun one member => apart one (by simp [member]),
        past entry (apart entry (by simp))]

/-- The order of items whose entries keep apart does not matter. -/
theorem after_flatMap_perm {α : Type} {items others : List α} {part : α → List Step}
    (same : items.Perm others)
    (apart : ∀ one ∈ items, ∀ other ∈ items, one ≠ other → ∀ entry ∈ Step.entries (part one),
      ∀ later ∈ Step.entries (part other), entry.Apart later) :
    tables.after (items.flatMap part) = tables.after (others.flatMap part) := by
  rw [after_flatMap, after_flatMap]
  refine same.foldl_eq' (fun one inItems other alsoIn seen => ?_) tables
  by_cases equal : one = other
  · rw [equal]
  · exact seen.foldl_record_comm (apart one inItems other alsoIn equal)

end SymbolTables

end SourceAtlas
