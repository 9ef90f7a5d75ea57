/- What one entry changes in the symbol tables and what it leaves, and what look-ups answer after a
history of entries: the last one that concerns them. -/
import SourceAtlas.Tables

namespace SourceAtlas

namespace Registration

/-- The module whose scope an entry changes. -/
def module? : Registration → Option String
  | .file module _ _ => some module
  | .symbol module _ _ _ => some module
  | .method _ _ _ => none
  | .binding module _ _ => some module
  | .bases _ _ => none
  | .blueprint module _ _ => some module

/-- The scope of its module after an entry. -/
def edit : Registration → ModuleScope → ModuleScope
  | .file _ _ id, scope => { scope with fileId := some id }
  | .symbol _ name id isType, scope =>
    { scope with
      symbols := scope.symbols.insert name id
      classes := if isType then scope.classes.insert name id else scope.classes }
  | .method _ _ _, scope => scope
  | .binding _ localName meaning, scope =>
      { scope with bindings := scope.bindings.insert localName meaning }
  | .bases _ _, scope => scope
  | .blueprint _ variableName id, scope =>
      { scope with blueprints := scope.blueprints.insert variableName id }

/-- The type that is known from an entry on. -/
def type? : Registration → Option String
  | .symbol _ _ id true => some id
  | .method typeId _ _ => some typeId
  | _ => none

/-- The methods of its type after an entry. -/
def editMethods : Registration → TextMap String → TextMap String
  | .method _ name id, methods => methods.insert name id
  | _, methods => methods

/-- The bases that an entry adds to a type. -/
def basesFor (typeId : String) : Registration → List String
  | .bases other listed => if other = typeId then listed else []
  | _ => []

/-- The id under which an entry makes a symbol with a name known, of any module. -/
def globalId? (name : String) : Registration → Option String
  | .symbol _ other id _ => if other = name then some id else none
  | _ => none

def globalTypeId? (name : String) : Registration → Option String
  | .symbol _ other id true => if other = name then some id else none
  | _ => none

-- What an entry answers to a look-up that it concerns.

def moduleAt? (path : String) : Registration → Option String
  | .file module other _ => if other = path then some module else none
  | _ => none

def fileId? (module : String) : Registration → Option String
  | .file other _ id => if other = module then some id else none
  | _ => none

def localId? (module name : String) : Registration → Option String
  | .symbol other given id _ => if other = module ∧ given = name then some id else none
  | _ => none

def classId? (module name : String) : Registration → Option String
  | .symbol other given id true => if other = module ∧ given = name then some id else none
  | _ => none

def methodId? (typeId name : String) : Registration → Option String
  | .method other given id => if other = typeId ∧ given = name then some id else none
  | _ => none

def meaning? (module localName : String) : Registration → Option ImportBinding
  | .binding other given meaning =>
      if other = module ∧ given = localName then some meaning else none
  | _ => none

section Answers

variable {entry : Registration} {module name id typeId : String}

@[simp] theorem localId?_eq_some_iff :
    entry.localId? module name = some id ↔ ∃ isType, entry = .symbol module name id isType := by
  cases entry with
  | symbol other given known isType => simp [localId?, and_assoc]
  | _ => simp [localId?]

@[simp] theorem classId?_eq_some_iff :
    entry.classId? module name = some id ↔ entry = .symbol module name id true := by
  cases entry with
  | symbol other given known isType => cases isType <;> simp [classId?, and_assoc]
  | _ => simp [classId?]

@[simp] theorem meaning?_eq_some_iff {meaning : ImportBinding} :
    entry.meaning? module name = some meaning ↔ entry = .binding module name meaning := by
  cases entry with
  | binding other given known => simp [meaning?, and_assoc]
  | _ => simp [meaning?]

@[simp] theorem fileId?_eq_some_iff :
    entry.fileId? module = some id ↔ ∃ path, entry = .file module path id := by
  cases entry with
  | file other path known => simp [fileId?]
  | _ => simp [fileId?]

@[simp] theorem methodId?_eq_some_iff :
    entry.methodId? typeId name = some id ↔ entry = .method typeId name id := by
  cases entry with
  | method other given known => simp [methodId?, and_assoc]
  | _ => simp [methodId?]

@[simp] theorem globalId?_eq_some_iff :
    entry.globalId? name = some id ↔ ∃ module isType, entry = .symbol module name id isType := by
  cases entry with
  | symbol module given known isType => simp [globalId?]
  | _ => simp [globalId?]

@[simp] theorem globalTypeId?_eq_some_iff :
    entry.globalTypeId? name = some id ↔ ∃ module, entry = .symbol module name id true := by
  cases entry with
  | symbol module given known isType => cases isType <;> simp [globalTypeId?]
  | _ => simp [globalTypeId?]

theorem type?_eq_some_iff : entry.type? = some typeId ↔
    (∃ module name, entry = .symbol module name typeId true) ∨ ∃ name id,
      entry = .method typeId name id := by
  cases entry with
  | symbol module name known isType => cases isType <;> simp [type?]
  | method owner name id => simp [type?]
  | _ => simp [type?]

end Answers

end Registration

namespace SymbolTables

variable (tables : SymbolTables) (entry : Registration)

theorem scope_eq_getD (module : String) : tables.scope module = tables.modules[module]?.getD {} :=
  Std.ExtTreeMap.getD_eq_getD_getElem?

theorem insert_insert_scope (modules : TextMap ModuleScope) (module : String)
    (first second : ModuleScope) :
    (modules.insert module first).insert module second = modules.insert module second := by
  refine Std.ExtTreeMap.ext_getElem? fun query => ?_
  simp only [TextMap.get?_put]
  split <;> rfl

theorem modules_record_eq :
    (tables.record entry).modules = match entry.module? with
      | some module => tables.modules.insert module (entry.edit (tables.scope module))
      | none => tables.modules := by
  cases entry with
  | file module path id => rfl
  | symbol module name id isType =>
      cases isType with
      | false => rfl
      | true =>
          have again : (tables.recordSymbol module name id).scope module =
              { tables.scope module with
                symbols := (tables.scope module).symbols.insert name id } := by
            rw [scope_eq_getD]
            simp [recordSymbol, setScope]
          simp only [record, if_true, recordType, setScope, again]
          exact insert_insert_scope _ _ _ _
  | method typeId name id => rfl
  | binding module localName meaning => rfl
  | bases typeId bases =>
      simp only [record, recordBases]
      split <;> rfl
  | blueprint module variableName id => rfl

/-- Only the scope of its own module is touched by an entry. -/
theorem modules_record (query : String) :
    (tables.record entry).modules[query]? =
      if entry.module? = some query then some (entry.edit (tables.scope query))
      else tables.modules[query]? := by
  rw [modules_record_eq]
  cases entry.module? with
  | none => rfl
  | some module =>
      simp only [TextMap.get?_put, Option.some.injEq]
      split
      · next same => rw [same]
      · rfl

theorem scope_record (query : String) :
    (tables.record entry).scope query =
      if entry.module? = some query then entry.edit (tables.scope query)
      else tables.scope query := by
  rw [scope_eq_getD, modules_record, scope_eq_getD]
  split <;> rfl

theorem methods_record (query : String) :
    (tables.record entry).methods[query]? =
      if entry.type? = some query then some (entry.editMethods (tables.methods.getD query ∅))
      else tables.methods[query]? := by
  cases entry with
  | symbol module name id isType =>
      cases isType with
      | false => rfl
      | true =>
          simp only [record, if_true, recordType, recordSymbol, setScope, Registration.type?,
            Registration.editMethods, TextMap.get?_put, Option.some.injEq]
          split
          · next same => rw [same]
          · rfl
  | method typeId name id =>
      simp only [record, recordMethod, Registration.type?, Registration.editMethods,
        TextMap.get?_put, Option.some.injEq]
      split
      · next same => rw [same]
      · rfl
  | file module path id => rfl
  | binding module localName meaning => rfl
  | bases typeId bases =>
      simp only [record, recordBases]
      split <;> rfl
  | blueprint module variableName id => rfl

theorem bases_record (query : String) :
    (tables.record entry).bases[query]? =
      if entry.basesFor query = [] then tables.bases[query]?
      else some (tables.bases.getD query [] ++ entry.basesFor query) := by
  cases entry with
  | bases typeId listed =>
      simp only [record, recordBases, Registration.basesFor, List.isEmpty_iff]
      by_cases same : typeId = query
      · subst same
        by_cases empty : listed = []
        · simp [empty]
        · simp [empty]
      · by_cases empty : listed = []
        · simp [empty]
        · simp [empty, same]
  | symbol module name id isType => cases isType <;> rfl
  | file module path id => rfl
  | method typeId name id => rfl
  | binding module localName meaning => rfl
  | blueprint module variableName id => rfl

@[simp] theorem get?_addTo (sets : TextMap TextSet) (key member query : String) :
    (addTo sets key member)[query]? =
      if key = query then some ((sets.getD query ∅).insert member) else sets[query]? := by
  rw [addTo, TextMap.get?_put]
  split
  · next same => rw [same]
  · rfl

theorem global_record (query : String) :
    (tables.record entry).global[query]? = match entry.globalId? query with
      | some id => some ((tables.global.getD query ∅).insert id)
      | none => tables.global[query]? := by
  cases entry with
  | symbol module name id isType =>
      have added : (tables.record (.symbol module name id isType)).global =
          addTo tables.global name id := by
        cases isType <;> rfl
      rw [added, get?_addTo, Registration.globalId?]
      split <;> rfl
  | file module path id => rfl
  | method typeId name id => rfl
  | binding module localName meaning => rfl
  | bases typeId bases =>
      simp only [record, recordBases]
      split <;> rfl
  | blueprint module variableName id => rfl

theorem globalTypes_record (query : String) :
    (tables.record entry).globalTypes[query]? = match entry.globalTypeId? query with
      | some id => some ((tables.globalTypes.getD query ∅).insert id)
      | none => tables.globalTypes[query]? := by
  cases entry with
  | symbol module name id isType =>
      cases isType with
      | false => rfl
      | true =>
          have added : (tables.record (.symbol module name id true)).globalTypes =
            addTo tables.globalTypes name id := rfl
          rw [added, get?_addTo, Registration.globalTypeId?]
          split <;> rfl
  | file module path id => rfl
  | method typeId name id => rfl
  | binding module localName meaning => rfl
  | bases typeId bases =>
      simp only [record, recordBases]
      split <;> rfl
  | blueprint module variableName id => rfl

theorem fileModules_record (query : String) :
    (tables.record entry).fileModules[query]? =
      (entry.moduleAt? query).or tables.fileModules[query]? := by
  cases entry with
  | file module path id =>
      simp only [record, recordFile, setScope, Registration.moduleAt?, TextMap.get?_put]
      split <;> rfl
  | symbol module name id isType => cases isType <;> rfl
  | method typeId name id => rfl
  | binding module localName meaning => rfl
  | bases typeId bases =>
      simp only [record, recordBases]
      split <;> rfl
  | blueprint module variableName id => rfl

section Lookups

theorem moduleFile?_eq_scope (module : String) :
    tables.moduleFile? module = (tables.scope module).fileId := by
  rw [moduleFile?, scope_eq_getD]
  cases tables.modules[module]? <;> rfl

theorem local?_eq_scope (module name : String) :
    tables.local? module name = (tables.scope module).symbols[name]? := by
  rw [local?, scope_eq_getD]
  cases tables.modules[module]? with
  | none => exact Std.ExtTreeMap.getElem?_empty.symm
  | some scope => rfl

theorem classIn?_eq_scope (module name : String) :
    tables.classIn? module name = (tables.scope module).classes[name]? := by
  rw [classIn?, scope_eq_getD]
  cases tables.modules[module]? with
  | none => exact Std.ExtTreeMap.getElem?_empty.symm
  | some scope => rfl

theorem binding?_eq_scope (module localName : String) :
    tables.binding? module localName = (tables.scope module).bindings[localName]? := by
  rw [binding?, scope_eq_getD]
  cases tables.modules[module]? with
  | none => exact Std.ExtTreeMap.getElem?_empty.symm
  | some scope => rfl

@[simp] theorem moduleFile?_record (module : String) :
    (tables.record entry).moduleFile? module =
      (entry.fileId? module).or (tables.moduleFile? module) := by
  rw [moduleFile?_eq_scope, scope_record, moduleFile?_eq_scope]
  cases entry with
  | file other path id =>
      by_cases same : other = module <;>
        simp [Registration.module?, Registration.edit, Registration.fileId?, same]
  | _ =>
      simp only [Registration.edit, Registration.fileId?, Option.none_or]
      split <;> rfl

@[simp] theorem local?_record (module name : String) :
    (tables.record entry).local? module name =
      (entry.localId? module name).or (tables.local? module name) := by
  rw [local?_eq_scope, scope_record, local?_eq_scope]
  cases entry with
  | symbol other given id isType =>
      by_cases here : other = module
      · by_cases same : given = name <;>
          simp [Registration.module?, Registration.edit, Registration.localId?, here, same]
      · simp [Registration.module?, Registration.localId?, here]
  | _ =>
      simp only [Registration.edit, Registration.localId?, Option.none_or]
      split <;> rfl

@[simp] theorem classIn?_record (module name : String) :
    (tables.record entry).classIn? module name =
      (entry.classId? module name).or (tables.classIn? module name) := by
  rw [classIn?_eq_scope, scope_record, classIn?_eq_scope]
  cases entry with
  | symbol other given id isType =>
      by_cases here : other = module
      · cases isType with
        | false => simp [Registration.module?, Registration.edit, Registration.classId?, here]
        | true =>
            by_cases same : given = name <;>
              simp [Registration.module?, Registration.edit, Registration.classId?, here, same]
      · cases isType <;> simp [Registration.module?, Registration.classId?, here]
  | _ =>
      simp only [Registration.edit, Registration.classId?, Option.none_or]
      split <;> rfl

@[simp] theorem binding?_record (module localName : String) :
    (tables.record entry).binding? module localName =
      (entry.meaning? module localName).or (tables.binding? module localName) := by
  rw [binding?_eq_scope, scope_record, binding?_eq_scope]
  cases entry with
  | binding other given meaning =>
      by_cases here : other = module
      · by_cases same : given = localName <;>
          simp [Registration.module?, Registration.edit, Registration.meaning?, here, same]
      · simp [Registration.module?, Registration.meaning?, here]
  | _ =>
      simp only [Registration.edit, Registration.meaning?, Option.none_or]
      split <;> rfl

theorem method?_eq_getD (typeId name : String) :
    tables.method? typeId name = (tables.methods.getD typeId ∅)[name]? := by
  rw [method?, Std.ExtTreeMap.getD_eq_getD_getElem?]
  cases tables.methods[typeId]? with
  | none => exact Std.ExtTreeMap.getElem?_empty.symm
  | some methods => rfl

@[simp] theorem method?_record (typeId name : String) :
    (tables.record entry).method? typeId name =
      (entry.methodId? typeId name).or (tables.method? typeId name) := by
  have known : (tables.record entry).method? typeId name =
      if entry.type? = some typeId then (entry.editMethods (tables.methods.getD typeId ∅))[name]?
      else tables.method? typeId name := by
    rw [method?, methods_record]
    split <;> rfl
  rw [known, method?_eq_getD]
  cases entry with
  | method other given id =>
      by_cases here : other = typeId
      · by_cases same : given = name <;>
          simp [Registration.type?, Registration.editMethods, Registration.methodId?, here, same]
      · simp [Registration.type?, Registration.methodId?, here]
  | _ =>
      simp only [Registration.editMethods, Registration.methodId?, Option.none_or]
      split <;> rfl

end Lookups

section Histories

variable {α : Type} (look : SymbolTables → Option α) {hit : Registration → Option α}
  (law : ∀ (tables : SymbolTables) (entry : Registration),
    look (tables.record entry) = (hit entry).or (look tables))
include law

/-- A look-up that single entries decide is decided by the last of them. -/
theorem look_foldl_record (entries : List Registration) :
    look (entries.foldl record tables) = (entries.reverse.findSome? hit).or (look tables) := by
  induction entries generalizing tables with
  | nil => rfl
  | cons entry rest ih =>
      rw [List.foldl_cons, ih, law, List.reverse_cons, List.findSome?_append, Option.or_assoc]
      simp

theorem look_eq_of_hit {entries : List Registration} {value : α} {entry : Registration}
    (member : entry ∈ entries) (hits : hit entry = some value)
    (only : ∀ other ∈ entries, ∀ found, hit other = some found → found = value) :
    look (entries.foldl record tables) = some value := by
  rw [look_foldl_record tables look law]
  cases last : entries.reverse.findSome? hit with
  | none =>
      have missed := List.findSome?_eq_none_iff.mp last entry (List.mem_reverse.mpr member)
      cases missed.symm.trans hits
  | some found =>
      obtain ⟨other, inside, same⟩ := List.exists_of_findSome?_eq_some last
      rw [only other (List.mem_reverse.mp inside) found same]
      rfl

/-- An answer was there before or comes from an entry. -/
theorem hit_of_look_eq {entries : List Registration} {value : α}
    (found : look (entries.foldl record tables) = some value) :
    (∃ entry ∈ entries, hit entry = some value) ∨ look tables = some value := by
  rw [look_foldl_record tables look law] at found
  rcases Option.or_eq_some_iff.mp found with late | ⟨-, early⟩
  · obtain ⟨entry, inside, same⟩ := List.exists_of_findSome?_eq_some late
    exact .inl ⟨entry, List.mem_reverse.mp inside, same⟩
  · exact .inr early

theorem look_eq_of_no_hit {entries : List Registration}
    (misses : ∀ entry ∈ entries, hit entry = none) :
    look (entries.foldl record tables) = look tables := by
  rw [look_foldl_record tables look law]
  have missed : entries.reverse.findSome? hit = none :=
    List.findSome?_eq_none_iff.mpr fun entry inside => misses entry (List.mem_reverse.mp inside)
  rw [missed]
  rfl

end Histories

section Candidates

@[simp] theorem mem_global_record (name id : String) :
    id ∈ (tables.record entry).global.getD name ∅ ↔
      entry.globalId? name = some id ∨ id ∈ tables.global.getD name ∅ := by
  rw [Std.ExtTreeMap.getD_eq_getD_getElem?, global_record]
  cases entry.globalId? name with
  | none => simp [Std.ExtTreeMap.getD_eq_getD_getElem?]
  | some new => simp [Std.ExtTreeSet.mem_insert]

@[simp] theorem mem_globalTypes_record (name id : String) :
    id ∈ (tables.record entry).globalTypes.getD name ∅ ↔
      entry.globalTypeId? name = some id ∨ id ∈ tables.globalTypes.getD name ∅ := by
  rw [Std.ExtTreeMap.getD_eq_getD_getElem?, globalTypes_record]
  cases entry.globalTypeId? name with
  | none => simp [Std.ExtTreeMap.getD_eq_getD_getElem?]
  | some new => simp [Std.ExtTreeSet.mem_insert]

variable (sets : SymbolTables → TextMap TextSet) {hit : String → Registration → Option String}
  (law : ∀ (tables : SymbolTables) (entry : Registration) (name id : String),
    id ∈ (sets (tables.record entry)).getD name ∅ ↔
      hit name entry = some id ∨ id ∈ (sets tables).getD name ∅)
include law

/-- Candidates for a name are never lost: they are those of all entries. -/
theorem mem_foldl_record (entries : List Registration) (name id : String) :
    id ∈ (sets (entries.foldl record tables)).getD name ∅ ↔
      (∃ entry ∈ entries, hit name entry = some id) ∨ id ∈ (sets tables).getD name ∅ := by
  induction entries generalizing tables with
  | nil => simp
  | cons entry rest ih =>
      rw [List.foldl_cons, ih, law]
      simp only [List.mem_cons, exists_eq_or_imp]
      rw [or_left_comm, or_assoc]

end Candidates

end SymbolTables

end SourceAtlas
