/- What the symbol tables can answer: every id that a look-up returns was entered into them. -/
import SourceAtlas.Proofs.Hierarchy
import SourceAtlas.Resolution

namespace SourceAtlas

/-- The ids that an entry makes available to look-ups. A file is also found by its path alone. -/
def Registration.ids : Registration → List String
  | .file _ path id => [id, Identifier.file path]
  | .symbol _ _ id _ => [id]
  | .method _ _ id => [id]
  | .binding _ _ _ => []
  | .bases _ _ => []
  | .blueprint _ _ id => [id]

/-- Every id held by the scope of one module has a given property. -/
structure ModuleScope.HoldsOnly (scope : ModuleScope) (p : String → Prop) : Prop where
  file : ∀ {id}, scope.fileId = some id → p id
  symbols : ∀ {name id : String}, scope.symbols[name]? = some id → p id
  classes : ∀ {name id : String}, scope.classes[name]? = some id → p id
  blueprints : ∀ {name id : String}, scope.blueprints[name]? = some id → p id

theorem ModuleScope.holdsOnly_empty (p : String → Prop) : ModuleScope.HoldsOnly {} p := by
  constructor <;> intros <;> simp_all

namespace SymbolTables

variable {tables : SymbolTables} {p q : String → Prop}

/-- Every id held by the tables has a given property. Bases and bindings are no answers by
themselves: they only lead to other look-ups. -/
structure HoldsOnly (tables : SymbolTables) (p : String → Prop) : Prop where
  scopes : ∀ {module : String} {scope : ModuleScope},
    tables.modules[module]? = some scope → scope.HoldsOnly p
  methods : ∀ {typeId : String} {methods : TextMap String} {name id : String},
    tables.methods[typeId]? = some methods → methods[name]? = some id → p id
  global : ∀ {name : String} {ids : TextSet} {id : String},
    tables.global[name]? = some ids → id ∈ ids → p id
  globalTypes : ∀ {name : String} {ids : TextSet} {id : String},
    tables.globalTypes[name]? = some ids → id ∈ ids → p id
  files : ∀ {path module : String},
    tables.fileModules[path]? = some module → p (Identifier.file path)

theorem holdsOnly_empty (p : String → Prop) : HoldsOnly {} p := by
  constructor <;> intros <;> simp_all

theorem HoldsOnly.mono (h : tables.HoldsOnly p) (sub : ∀ id, p id → q id) : tables.HoldsOnly q where
  scopes found :=
    let scope := h.scopes found
    ⟨fun f => sub _ (scope.file f), fun f => sub _ (scope.symbols f),
      fun f => sub _ (scope.classes f), fun f => sub _ (scope.blueprints f)⟩
  methods found method := sub _ (h.methods found method)
  global found member := sub _ (h.global found member)
  globalTypes found member := sub _ (h.globalTypes found member)
  files found := sub _ (h.files found)

theorem HoldsOnly.scope (h : tables.HoldsOnly p) (module : String) :
    (tables.scope module).HoldsOnly p := by
  rw [SymbolTables.scope, Std.ExtTreeMap.getD_eq_getD_getElem?]
  cases found : tables.modules[module]? with
  | none => exact ModuleScope.holdsOnly_empty p
  | some scope => exact h.scopes found

/-- Only the scope of one module changes. -/
theorem HoldsOnly.setScope (h : tables.HoldsOnly p) (module : String) (scope : ModuleScope)
    (hs : scope.HoldsOnly p) : (tables.setScope module scope).HoldsOnly p := by
  refine ⟨?_, h.methods, h.global, h.globalTypes, h.files⟩
  intro query found
  simp only [SymbolTables.setScope, TextMap.get?_put]
  split
  · intro same
    cases same
    exact hs
  · exact h.scopes

theorem addTo_holdsOnly {sets : TextMap TextSet} {key member : String}
    (h : ∀ {name : String} {ids : TextSet} {id : String}, sets[name]? = some ids → id ∈ ids → p id)
    (hm : p member) {name : String} {ids : TextSet} {id : String}
    (found : (addTo sets key member)[name]? = some ids) (inside : id ∈ ids) : p id := by
  rw [addTo, TextMap.get?_put] at found
  split at found
  · cases found
    rcases Std.ExtTreeSet.mem_insert.mp inside with same | old
    · rwa [← Std.compare_eq_iff_eq.mp same]
    · rw [Std.ExtTreeMap.getD_eq_getD_getElem?] at old
      cases known : sets[key]? with
      | none => simp [known] at old
      | some ids => exact h known (by simpa [known] using old)
  · exact h found inside

/-- A map with one more entry holds what it held, and the new value. -/
theorem insert_holdsOnly {map : TextMap String} {key value : String}
    (h : ∀ {name id : String}, map[name]? = some id → p id) (hv : p value) {name id : String}
    (found : (map.insert key value)[name]? = some id) : p id := by
  rw [TextMap.get?_put] at found
  split at found
  · cases found
    exact hv
  · exact h found

theorem HoldsOnly.recordFile (h : tables.HoldsOnly p) {module path id : String} (hid : p id)
    (hpath : p (Identifier.file path)) : (tables.recordFile module path id).HoldsOnly p := by
  have scope := h.scope module
  have moved := h.setScope module { tables.scope module with fileId := some id }
    ⟨fun same => by cases same; exact hid, scope.symbols, scope.classes, scope.blueprints⟩
  refine ⟨moved.scopes, moved.methods, moved.global, moved.globalTypes, ?_⟩
  intro query name found
  simp only [SymbolTables.recordFile, TextMap.get?_put] at found
  split at found
  · next same => exact same ▸ hpath
  · exact h.files found

theorem HoldsOnly.recordSymbol (h : tables.HoldsOnly p) {module name id : String} (hid : p id) :
    (tables.recordSymbol module name id).HoldsOnly p := by
  have scope := h.scope module
  have moved := h.setScope module
    { tables.scope module with symbols := (tables.scope module).symbols.insert name id }
    ⟨scope.file, insert_holdsOnly scope.symbols hid, scope.classes, scope.blueprints⟩
  exact ⟨moved.scopes, moved.methods, addTo_holdsOnly h.global hid, moved.globalTypes, moved.files⟩

/-- Methods of one type under a new name keep the property if the new method has it. -/
theorem HoldsOnly.recordMethod (h : tables.HoldsOnly p) {typeId name id : String} (hid : p id) :
    (tables.recordMethod typeId name id).HoldsOnly p := by
  refine ⟨h.scopes, ?_, h.global, h.globalTypes, h.files⟩
  intro query methods key value found method
  simp only [SymbolTables.recordMethod, TextMap.get?_put] at found
  split at found
  · cases found
    refine insert_holdsOnly (fun old => ?_) hid method
    rw [Std.ExtTreeMap.getD_eq_getD_getElem?] at old
    cases known : tables.methods[typeId]? with
    | none => simp [known] at old
    | some methods => exact h.methods known (by simpa [known] using old)
  · exact h.methods found method

theorem HoldsOnly.recordType (h : tables.HoldsOnly p) {module name id : String} (hid : p id) :
    (tables.recordType module name id).HoldsOnly p := by
  have scope := h.scope module
  have moved := h.setScope module
    { tables.scope module with classes := (tables.scope module).classes.insert name id }
    ⟨scope.file, scope.symbols, insert_holdsOnly scope.classes hid, scope.blueprints⟩
  refine ⟨moved.scopes, ?_, moved.global, addTo_holdsOnly h.globalTypes hid, moved.files⟩
  intro query methods key value found method
  simp only [SymbolTables.recordType, TextMap.get?_put] at found
  split at found
  · cases found
    rw [Std.ExtTreeMap.getD_eq_getD_getElem?] at method
    cases known : tables.methods[id]? with
    | none => simp [known] at method
    | some methods => exact h.methods known (by simpa [known] using method)
  · exact h.methods found method

theorem HoldsOnly.recordBinding (h : tables.HoldsOnly p) (module localName : String)
    (binding : ImportBinding) : (tables.recordBinding module localName binding).HoldsOnly p :=
  have scope := h.scope module
  h.setScope module _ ⟨scope.file, scope.symbols, scope.classes, scope.blueprints⟩

theorem HoldsOnly.recordBases (h : tables.HoldsOnly p) (typeId : String) (bases : List String) :
    (tables.recordBases typeId bases).HoldsOnly p := by
  unfold SymbolTables.recordBases
  split
  · exact h
  · exact ⟨h.scopes, h.methods, h.global, h.globalTypes, h.files⟩

theorem HoldsOnly.recordBlueprint (h : tables.HoldsOnly p) {module variableName id : String}
    (hid : p id) : (tables.recordBlueprint module variableName id).HoldsOnly p :=
  have scope := h.scope module
  h.setScope module _ ⟨scope.file, scope.symbols, scope.classes,
    insert_holdsOnly scope.blueprints hid⟩

/-- One entry adds no ids but its own. -/
theorem HoldsOnly.record (h : tables.HoldsOnly p) {entry : Registration}
    (hids : ∀ id ∈ entry.ids, p id) : (tables.record entry).HoldsOnly p := by
  cases entry with
  | file module path id =>
      exact h.recordFile (hids _ (by simp [Registration.ids])) (hids _ (by simp [Registration.ids]))
  | symbol module name id isType =>
      have hid : p id := hids _ (by simp [Registration.ids])
      simp only [SymbolTables.record]
      split
      · exact (h.recordSymbol hid).recordType hid
      · exact h.recordSymbol hid
  | method typeId name id => exact h.recordMethod (hids _ (by simp [Registration.ids]))
  | binding module localName binding => exact h.recordBinding module localName binding
  | bases typeId bases => exact h.recordBases typeId bases
  | blueprint module variableName id =>
      exact h.recordBlueprint (hids _ (by simp [Registration.ids]))

section Lookups

variable (h : tables.HoldsOnly p) {module name id : String}
include h

theorem HoldsOnly.moduleFile (found : tables.moduleFile? module = some id) : p id := by
  obtain ⟨scope, known, file⟩ := Option.bind_eq_some_iff.mp found
  exact (h.scopes known).file file

theorem HoldsOnly.local (found : tables.local? module name = some id) : p id := by
  obtain ⟨scope, known, symbol⟩ := Option.bind_eq_some_iff.mp found
  exact (h.scopes known).symbols symbol

theorem HoldsOnly.classIn (found : tables.classIn? module name = some id) : p id := by
  obtain ⟨scope, known, type⟩ := Option.bind_eq_some_iff.mp found
  exact (h.scopes known).classes type

theorem HoldsOnly.blueprint (found : tables.blueprint? module name = some id) : p id := by
  obtain ⟨scope, known, blueprint⟩ := Option.bind_eq_some_iff.mp found
  exact (h.scopes known).blueprints blueprint

theorem HoldsOnly.method {typeId : String} (found : tables.method? typeId name = some id) :
    p id := by
  obtain ⟨methods, known, method⟩ := Option.bind_eq_some_iff.mp found
  exact h.methods known method

end Lookups

theorem mem_of_only? {candidates : Option TextSet} {id : String}
    (found : only? candidates = some id) :
    ∃ ids, candidates = some ids ∧ id ∈ ids := by
  cases candidates with
  | none => cases found
  | some ids =>
      refine ⟨ids, rfl, ?_⟩
      unfold only? at found
      split at found
      · next single listed =>
          cases found
          rw [← Std.ExtTreeSet.mem_toList]
          simp only [Option.map_some, Option.some.injEq] at listed
          simp [listed]
      · cases found

theorem HoldsOnly.uniqueGlobal (h : tables.HoldsOnly p) {name id : String}
    (found : tables.uniqueGlobal? name = some id) : p id := by
  obtain ⟨ids, known, member⟩ := mem_of_only? found
  exact h.global known member

theorem HoldsOnly.uniqueGlobalType (h : tables.HoldsOnly p) {name id : String}
    (found : tables.uniqueGlobalType? name = some id) : p id := by
  obtain ⟨ids, known, member⟩ := mem_of_only? found
  exact h.globalTypes known member

/-- Every id that a call can lead to has a given property. -/
structure CallsOnly (tables : SymbolTables) (p : String → Prop) : Prop where
  symbol : ∀ {module name id : String}, tables.local? module name = some id → p id
  method : ∀ {typeId name id : String}, tables.method? typeId name = some id → p id
  uniqueGlobal : ∀ {name id : String}, tables.uniqueGlobal? name = some id → p id

theorem HoldsOnly.callsOnly (h : tables.HoldsOnly p) : tables.CallsOnly p :=
  ⟨h.local, h.method, h.uniqueGlobal⟩

theorem CallsOnly.methodInHierarchy (h : tables.CallsOnly p) {typeId name id : String}
    (found : tables.methodInHierarchy? typeId name = some id) : p id := by
  obtain ⟨reached, _, known⟩ := methodInHierarchy?_reaches found
  exact h.method known

end SymbolTables

/-- A candidate for a reference, if there is one, has the property and is more than a guess. -/
def Resolution.Candidate (p : String → Prop) (candidate : Option (Confidence × String)) : Prop :=
  ∀ confidence id, candidate = some (confidence, id) → confidence ≠ .low ∧ p id

/-- A reference leads to a node with the property, or outside; exactly the latter has low
confidence. -/
def Resolution.Grounded (p : String → Prop) (resolution : Resolution) : Prop :=
  match resolution.target with
  | .node id => p id ∧ resolution.confidence ≠ .low
  | .external _ => resolution.confidence = .low

namespace Resolution

variable {p q : String → Prop}

theorem grounded_external (p : String → Prop) (name : String) : (external name).Grounded p := rfl

theorem candidate_tier {confidence : Confidence} {id : Option String} (strong : confidence ≠ .low)
    (h : ∀ found, id = some found → p found) : Candidate p (tier confidence id) := by
  intro given found same
  obtain ⟨known, hk, pair⟩ := Option.map_eq_some_iff.mp same
  cases pair
  exact ⟨strong, h _ hk⟩

/-- A tier that looks something up only to look further from there. -/
theorem candidate_tier_bind {α : Type} {confidence : Confidence} {origin : Option α}
    {find : α → Option String} (strong : confidence ≠ .low)
    (h : ∀ start found, find start = some found → p found) :
    Candidate p (tier confidence (origin.bind find)) := by
  refine candidate_tier strong fun found same => ?_
  obtain ⟨start, _, further⟩ := Option.bind_eq_some_iff.mp same
  exact h start found further

theorem grounded_ofTiers {tiers : List (Option (Confidence × String))} (fallback : String)
    (h : ∀ candidate ∈ tiers, Candidate p candidate) : (ofTiers tiers fallback).Grounded p := by
  unfold ofTiers
  cases first : tiers.findSome? id with
  | none => exact grounded_external p fallback
  | some found =>
      obtain ⟨confidence, target⟩ := found
      obtain ⟨candidate, member, same⟩ := List.exists_of_findSome?_eq_some first
      obtain ⟨strong, hp⟩ := h candidate member confidence target same
      exact ⟨hp, strong⟩

end Resolution

theorem SymbolTables.CallsOnly.boundSymbol {tables : SymbolTables} {p : String → Prop}
    (h : tables.CallsOnly p) (module localName : String) :
    Resolution.Candidate p (tables.boundSymbol? module localName) := by
  intro confidence id found
  unfold SymbolTables.boundSymbol? at found
  split at found
  · next source name renamed bound =>
      obtain ⟨target, known, pair⟩ := Option.map_eq_some_iff.mp found
      cases pair
      refine ⟨?_, h.symbol known⟩
      cases renamed <;> decide
  · cases found

end SourceAtlas
