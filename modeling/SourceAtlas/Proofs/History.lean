/- The symbol tables tell the history of the entries made into them. What a module declares or binds
is what was entered last; what a name stands for everywhere depends on all entries ever made; and
an entry makes a module or a type known only if it is a file of the one, or declares or extends
the other. -/
import SourceAtlas.Proofs.Policy

namespace SourceAtlas

namespace Registration

/-- Of the entries that give an answer, whatever it is, the last one gives this. -/
def LastAnswer {α : Type} (history : List Registration) (gives : Registration → α → Prop)
    (answer : α) : Prop :=
  ∃ before entry after, history = before ++ entry :: after ∧ gives entry answer ∧
    ∀ later ∈ after, ∀ other, ¬gives later other

theorem findSome?_reverse_eq_some_iff {α : Type} {history : List Registration}
    {hit : Registration → Option α} {answer : α} : history.reverse.findSome? hit = some answer ↔
      LastAnswer history (fun entry answer => hit entry = some answer) answer := by
  rw [List.findSome?_eq_some_iff]
  constructor
  · rintro ⟨later, entry, earlier, split, hits, missed⟩
    refine ⟨earlier.reverse, entry, later.reverse, ?_, hits, ?_⟩
    · rw [← List.reverse_reverse history, split]
      simp
    · intro other member found same
      rw [missed other (List.mem_reverse.mp member)] at same
      cases same
  · rintro ⟨before, entry, after, rfl, hits, missed⟩
    refine ⟨after.reverse, entry, before.reverse, by simp, hits, ?_⟩
    intro other member
    exact Option.eq_none_iff_forall_ne_some.mpr (missed other (List.mem_reverse.mp member))

end Registration

namespace SymbolTables

open Registration

section Replay

variable (history : List Registration)

theorem local?_replay_eq_some_iff {module name id : String} :
    (replay history).local? module name = some id ↔
    LastAnswer history (fun entry id => ∃ isType, entry = .symbol module name id isType) id := by
  rw [local?_replay, symbolIn?, findSome?_reverse_eq_some_iff]
  simp only [localId?_eq_some_iff]

theorem classIn?_replay_eq_some_iff {module name id : String} :
    (replay history).classIn? module name = some id ↔
    LastAnswer history (fun entry id => entry = .symbol module name id true) id := by
  have nothing : empty.classIn? module name = none := by simp [empty, classIn?]
  rw [replay, look_foldl_record empty (classIn? · module name) (fun _ _ => classIn?_record _ _ _ _),
    nothing, Option.or_none, findSome?_reverse_eq_some_iff]
  simp only [classId?_eq_some_iff]

theorem binding?_replay_eq_some_iff {module localName : String} {meaning : ImportBinding} :
    (replay history).binding? module localName = some meaning ↔
      LastAnswer history (fun entry meaning => entry = .binding module localName meaning)
        meaning := by
  rw [binding?_replay, findSome?_reverse_eq_some_iff]
  simp only [meaning?_eq_some_iff]

theorem uniqueGlobal?_replay_eq_some_iff {name id : String} :
    (replay history).uniqueGlobal? name = some id ↔
    ∀ other, (∃ module isType, .symbol module name other isType ∈ history) ↔ other = id := by
  rw [uniqueGlobal?, only?_eq_some_iff, ← Std.ExtTreeMap.getD_eq_getD_getElem?]
  simp only [mem_global_replay]

theorem mem_globalTypes_replay (name id : String) :
    id ∈ (replay history).globalTypes.getD name ∅ ↔ ∃ module,
      .symbol module name id true ∈ history := by
  rw [replay, mem_foldl_record empty globalTypes mem_globalTypes_record]
  simp only [globalTypeId?_eq_some_iff]
  constructor
  · rintro (⟨entry, member, module, rfl⟩ | old)
    · exact ⟨module, member⟩
    · simp [empty] at old
  · rintro ⟨module, member⟩
    exact .inl ⟨_, member, module, rfl⟩

theorem uniqueGlobalType?_replay_eq_some_iff {name id : String} :
    (replay history).uniqueGlobalType? name = some id ↔
      ∀ other, (∃ module, .symbol module name other true ∈ history) ↔ other = id := by
  rw [uniqueGlobalType?, only?_eq_some_iff, ← Std.ExtTreeMap.getD_eq_getD_getElem?]
  simp only [mem_globalTypes_replay]

theorem hasModule_replay_iff {module : String} :
    (replay history).hasModule module = true ↔ ∃ path id, .file module path id ∈ history := by
  have nothing : empty.moduleFile? module = none := by simp [empty, moduleFile?]
  rw [hasModule, replay, look_foldl_record empty (moduleFile? · module)
    (fun _ _ => moduleFile?_record _ _ _), nothing, Option.or_none, List.findSome?_isSome_iff]
  simp only [List.mem_reverse, Option.isSome_iff_exists, fileId?_eq_some_iff]
  constructor
  · rintro ⟨entry, member, id, path, rfl⟩
    exact ⟨path, id, member⟩
  · rintro ⟨path, id, member⟩
    exact ⟨_, member, id, path, rfl⟩

/-- No entry makes a known type unknown. -/
theorem hasType_record_iff (tables : SymbolTables) (entry : Registration) {typeId : String} :
    (tables.record entry).hasType typeId = true ↔
      entry.type? = some typeId ∨ tables.hasType typeId = true := by
  rw [hasType, methods_record, hasType]
  by_cases own : entry.type? = some typeId
  · simp [own]
  · simp [own]

theorem hasType_foldl_record_iff (tables : SymbolTables) {typeId : String} :
    (history.foldl record tables).hasType typeId = true ↔
      (∃ entry ∈ history, entry.type? = some typeId) ∨ tables.hasType typeId = true := by
  induction history generalizing tables with
  | nil => simp
  | cons entry rest ih =>
      rw [List.foldl_cons, ih, hasType_record_iff]
      simp only [List.mem_cons, exists_eq_or_imp]
      rw [or_left_comm, or_assoc]

theorem hasType_replay_iff {typeId : String} : (replay history).hasType typeId = true ↔
    (∃ module name, .symbol module name typeId true ∈ history) ∨ ∃ name id,
      .method typeId name id ∈ history := by
  have nothing : empty.hasType typeId = false := by simp [empty, hasType]
  rw [replay, hasType_foldl_record_iff, nothing]
  simp only [type?_eq_some_iff]
  constructor
  · rintro (⟨entry, member, ⟨module, name, rfl⟩ | ⟨name, id, rfl⟩⟩ | old)
    · exact .inl ⟨module, name, member⟩
    · exact .inr ⟨name, id, member⟩
    · cases old
  · rintro (⟨module, name, member⟩ | ⟨name, id, member⟩)
    · exact .inl ⟨_, member, .inl ⟨module, name, rfl⟩⟩
    · exact .inl ⟨_, member, .inr ⟨name, id, rfl⟩⟩

end Replay

/-- The answers of tables in terms of the entries made into them. -/
structure Reflects (tables : SymbolTables) (history : List Registration) : Prop where
  symbols : ∀ module name id, tables.local? module name = some id ↔
    LastAnswer history (fun entry id => ∃ isType, entry = .symbol module name id isType) id
  types : ∀ module name id, tables.classIn? module name = some id ↔
    LastAnswer history (fun entry id => entry = .symbol module name id true) id
  bindings : ∀ module localName meaning, tables.binding? module localName = some meaning ↔
    LastAnswer history (fun entry meaning => entry = .binding module localName meaning) meaning
  uniqueSymbols : ∀ name id, tables.uniqueGlobal? name = some id ↔
    ∀ other, (∃ module isType, .symbol module name other isType ∈ history) ↔ other = id
  uniqueTypes : ∀ name id, tables.uniqueGlobalType? name = some id ↔
    ∀ other, (∃ module, .symbol module name other true ∈ history) ↔ other = id
  knownTypes : ∀ typeId, tables.hasType typeId = true ↔
    (∃ module name, .symbol module name typeId true ∈ history) ∨ ∃ name id,
      .method typeId name id ∈ history
  knownModules : ∀ module, tables.hasModule module = true ↔ ∃ path id,
    .file module path id ∈ history

theorem replay_reflects (history : List Registration) : (replay history).Reflects history where
  symbols _ _ _ := local?_replay_eq_some_iff history
  types _ _ _ := classIn?_replay_eq_some_iff history
  bindings _ _ _ := binding?_replay_eq_some_iff history
  uniqueSymbols _ _ := uniqueGlobal?_replay_eq_some_iff history
  uniqueTypes _ _ := uniqueGlobalType?_replay_eq_some_iff history
  knownTypes _ := hasType_replay_iff history
  knownModules _ := hasModule_replay_iff history

end SymbolTables

end SourceAtlas
