/- What the confidence of a resolved call says. The answers of the tables are read off the entries
made so far, and with them every front-end turns out to follow one policy: strong for what a module
itself declares or imports by name, weak exactly for what lies outside. -/
import Mathlib.Logic.ExistsUnique
import SourceAtlas.Proofs.Commutation
import SourceAtlas.Proofs.Linking.JavaScript
import SourceAtlas.Proofs.Linking.Swift

namespace SourceAtlas

namespace Registration

/-- The symbol that a name of a module stands for: the one entered last. -/
def symbolIn? (history : List Registration) (module name : String) : Option String :=
  history.reverse.findSome? (localId? module name)

/-- The last import of a local name was for a symbol that its source module has. -/
def ImportedAs (history : List Registration) (module localName : String) (renamed : Bool)
    (id : String) : Prop :=
  ∃ source name, history.reverse.findSome? (meaning? module localName) =
    some (.symbol source name renamed) ∧
    symbolIn? history source name = some id

/-- One type comes after another when the bases that were entered are followed. -/
def Inherits (history : List Registration) : String → String → Prop :=
  Relation.ReflTransGen fun typeId base => ∃ listed, .bases typeId listed ∈ history ∧ base ∈ listed

def HasMethod (history : List Registration) (typeId name : String) : Prop :=
  ∃ owner id, Inherits history typeId owner ∧ .method owner name id ∈ history

/-- All top-level symbols with a name, of any module, share one id, and there is such a symbol. -/
def NamesOne (history : List Registration) (name : String) : Prop :=
  ∃! id, ∃ module isType, .symbol module name id isType ∈ history

def EntersId (history : List Registration) (id : String) : Prop :=
  (∃ module name isType, .symbol module name id isType ∈ history) ∨ ∃ typeId name,
    .method typeId name id ∈ history

theorem mem_flatMap_basesFor {history : List Registration} {typeId base : String} :
    base ∈ history.flatMap (basesFor typeId) ↔ ∃ listed,
      .bases typeId listed ∈ history ∧ base ∈ listed := by
  rw [List.mem_flatMap]
  constructor
  · rintro ⟨entry, member, inside⟩
    cases entry with
    | bases other listed =>
        simp only [basesFor] at inside
        split at inside
        · next same => exact ⟨listed, same ▸ member, inside⟩
        · cases inside
    | _ => cases inside
  · rintro ⟨listed, member, inside⟩
    exact ⟨_, member, by simpa [basesFor] using inside⟩

end Registration

namespace SymbolTables

open Registration

variable (history : List Registration)

theorem local?_replay (module name : String) :
    (replay history).local? module name = symbolIn? history module name := by
  rw [replay, look_foldl_record empty (local? · module name) (fun _ _ => local?_record _ _ _ _)]
  have nothing : empty.local? module name = none := by simp [empty, local?]
  rw [nothing, Option.or_none]
  rfl

theorem binding?_replay (module localName : String) :
    (replay history).binding? module localName =
      history.reverse.findSome? (meaning? module localName) := by
  rw [replay, look_foldl_record empty (binding? · module localName)
    (fun _ _ => binding?_record _ _ _ _)]
  have nothing : empty.binding? module localName = none := by simp [empty, binding?]
  rw [nothing, Option.or_none]

theorem method?_replay (typeId name : String) :
    (replay history).method? typeId name = history.reverse.findSome? (methodId? typeId name) := by
  rw [replay, look_foldl_record empty (method? · typeId name) (fun _ _ => method?_record _ _ _ _)]
  have nothing : empty.method? typeId name = none := by simp [empty, method?]
  rw [nothing, Option.or_none]

theorem basesOf_replay (typeId : String) :
    (replay history).basesOf typeId = history.flatMap (basesFor typeId) := by
  have general : ∀ (entries : List Registration) (tables : SymbolTables),
      (entries.foldl record tables).basesOf typeId =
        tables.basesOf typeId ++ entries.flatMap (basesFor typeId) := by
    intro entries
    induction entries with
    | nil => simp
    | cons entry rest ih =>
        intro tables
        rw [List.foldl_cons, ih, basesOf, bases_getD_record, List.append_assoc, List.flatMap_cons]
        rfl
  rw [replay, general, basesOf, empty, Std.ExtTreeMap.getD_empty, List.nil_append]

theorem mem_global_replay (name id : String) :
    id ∈ (replay history).global.getD name ∅ ↔ ∃ module isType,
      .symbol module name id isType ∈ history := by
  rw [replay, mem_foldl_record empty global mem_global_record]
  simp only [globalId?_eq_some_iff]
  constructor
  · rintro (⟨entry, member, module, isType, rfl⟩ | old)
    · exact ⟨module, isType, member⟩
    · simp [empty] at old
  · rintro ⟨module, isType, member⟩
    exact .inl ⟨_, member, module, isType, rfl⟩

theorem only?_eq_some_iff {candidates : Option TextSet} {id : String} :
    only? candidates = some id ↔ ∀ other, other ∈ candidates.getD ∅ ↔ other = id := by
  constructor
  · intro found other
    unfold only? at found
    split at found
    · next single listed =>
        cases found
        obtain ⟨ids, rfl, same⟩ := Option.map_eq_some_iff.mp listed
        rw [Option.getD_some, ← Std.ExtTreeSet.mem_toList, same, List.mem_singleton]
    · cases found
  · intro only
    cases candidates with
    | none => exact absurd ((only id).mpr rfl) (by simp)
    | some ids =>
        have members : ∀ other, other ∈ ids.toList ↔ other = id := fun other =>
          Std.ExtTreeSet.mem_toList.trans (only other)
        have distinct := ids.distinct_toList
        have listed : ids.toList = [id] := by
          match shape : ids.toList with
          | [] =>
              have member := (members id).mpr rfl
              rw [shape] at member
              cases member
          | [single] => rw [(members single).mp (by simp [shape])]
          | first :: second :: rest =>
              -- Both would be the one member, but no member is listed twice.
              have one := (members first).mp (by simp [shape])
              have other := (members second).mp (by simp [shape])
              rw [shape, one, other] at distinct
              exact absurd Std.ReflCmp.compare_self (List.rel_of_pairwise_cons distinct (by simp))
        rw [only?, Option.map_some, listed]

/-- A name has a single meaning across all modules exactly when all its symbols share one id. -/
theorem uniqueGlobal?_replay_eq_none_iff (name : String) :
    (replay history).uniqueGlobal? name = none ↔ ¬NamesOne history name := by
  rw [Option.eq_none_iff_forall_ne_some, NamesOne, ExistsUnique, not_exists]
  refine forall_congr' fun id => not_congr ?_
  rw [uniqueGlobal?, only?_eq_some_iff, ← Std.ExtTreeMap.getD_eq_getD_getElem?]
  simp only [mem_global_replay]
  constructor
  · intro only
    exact ⟨(only id).mpr rfl, fun other entered => (only other).mp entered⟩
  · rintro ⟨entered, only⟩ other
    exact ⟨only other, fun same => same ▸ entered⟩

theorem boundSymbol?_replay_eq_some_iff {module localName id : String} {confidence : Confidence} :
    (replay history).boundSymbol? module localName = some (confidence, id) ↔
      ∃ renamed, confidence = (if renamed then .medium else .high) ∧
        ImportedAs history module localName renamed id := by
  rw [boundSymbol?, binding?_replay]
  constructor
  · intro found
    split at found
    · next source name renamed bound =>
        obtain ⟨target, known, pair⟩ := Option.map_eq_some_iff.mp found
        cases pair
        rw [local?_replay] at known
        exact ⟨renamed, by cases renamed <;> rfl, source, name, bound, known⟩
    · cases found
  · rintro ⟨renamed, rfl, source, name, bound, known⟩
    rw [bound]
    simp only [local?_replay, known, Option.map_some]

theorem boundSymbol?_replay_eq_none_iff (module localName : String) :
    (replay history).boundSymbol? module localName = none ↔
      ¬∃ renamed id, ImportedAs history module localName renamed id := by
  constructor
  · rintro missed ⟨renamed, id, bound⟩
    have found := (boundSymbol?_replay_eq_some_iff history).mpr ⟨renamed, rfl, bound⟩
    rw [missed] at found
    cases found
  · intro unbound
    cases found : (replay history).boundSymbol? module localName with
    | none => rfl
    | some answer =>
        obtain ⟨confidence, id⟩ := answer
        obtain ⟨renamed, _, bound⟩ := (boundSymbol?_replay_eq_some_iff history).mp found
        exact absurd ⟨renamed, id, bound⟩ unbound

theorem methodInHierarchy?_replay_eq_none_iff (typeId name : String) :
    (replay history).methodInHierarchy? typeId name = none ↔ ¬HasMethod history typeId name := by
  have follows : (replay history).Reaches = Inherits history := by
    unfold Reaches Inherits
    simp only [basesOf_replay, mem_flatMap_basesFor]
  have owns (owner : String) : (replay history).method? owner name = none ↔ ∀ id,
      .method owner name id ∉ history := by
    rw [method?_replay, List.findSome?_eq_none_iff]
    constructor
    · intro missed id member
      have own := missed _ (List.mem_reverse.mpr member)
      simp [methodId?] at own
    · intro absent entry member
      cases hit : entry.methodId? owner name with
      | none => rfl
      | some id =>
          exact absurd (methodId?_eq_some_iff.mp hit ▸ List.mem_reverse.mp member) (absent id)
  rw [methodInHierarchy?_eq_none_iff, follows, HasMethod]
  simp only [owns, not_exists, not_and]
  exact ⟨fun missed owner id path => missed owner path id,
    fun missed owner path id => missed owner id path⟩

/-- Calls lead to nothing that was not entered as a symbol or as a method. -/
theorem callsOnly_replay : (replay history).CallsOnly (EntersId history) where
  symbol found := by
    rw [local?_replay] at found
    obtain ⟨entry, member, hit⟩ := List.exists_of_findSome?_eq_some found
    obtain ⟨isType, rfl⟩ := localId?_eq_some_iff.mp hit
    exact .inl ⟨_, _, isType, List.mem_reverse.mp member⟩
  method found := by
    rw [method?_replay] at found
    obtain ⟨entry, member, hit⟩ := List.exists_of_findSome?_eq_some found
    cases methodId?_eq_some_iff.mp hit
    exact .inr ⟨_, _, List.mem_reverse.mp member⟩
  uniqueGlobal {name id} found := by
    obtain ⟨ids, known, member⟩ := mem_of_only? found
    obtain ⟨module, isType, entered⟩ := (mem_global_replay history name id).mp (by
      rw [Std.ExtTreeMap.getD_eq_getD_getElem?, known]
      exact member)
    exact .inl ⟨module, name, isType, entered⟩

end SymbolTables

namespace Resolution

variable {resolution : Resolution} {p : String → Prop}

def IsExternal (resolution : Resolution) : Prop := ∃ label, resolution.target = .external label

theorem Grounded.node (h : resolution.Grounded p) {id : String}
    (leads : resolution.target = .node id) : p id := by
  unfold Grounded at h
  rw [leads] at h
  exact h.1

theorem Grounded.low_iff (h : resolution.Grounded p) :
    resolution.confidence = .low ↔ resolution.IsExternal := by
  unfold Grounded at h
  unfold IsExternal
  cases target : resolution.target with
  | node id =>
      rw [target] at h
      simp [h.2]
  | external label =>
      rw [target] at h
      simp [h]

theorem isExternal_ofTiers_iff {tiers : List (Option (Confidence × String))} {fallback : String} :
    (ofTiers tiers fallback).IsExternal ↔ ∀ candidate ∈ tiers, candidate = none := by
  have missing : tiers.findSome? id = none ↔ ∀ candidate ∈ tiers, candidate = none :=
    List.findSome?_eq_none_iff
  rw [← missing]
  unfold ofTiers IsExternal
  cases tiers.findSome? id with
  | none => simp [external]
  | some found => simp

/-- Of a strong candidate, one of its own strength and a middling one, the first two can be
strong. -/
theorem high_ofTiers {first third : Option String} {second : Option (Confidence × String)}
    {fallback : String}
    (high : (ofTiers [tier .high first, second, tier .medium third] fallback).confidence = .high) :
    ∃ id, (ofTiers [tier .high first, second, tier .medium third] fallback).target = .node id ∧
      (first = some id ∨ first = none ∧ second = some (.high, id)) := by
  cases first with
  | some id => exact ⟨id, rfl, .inl rfl⟩
  | none =>
      cases second with
      | some candidate =>
          obtain ⟨confidence, id⟩ := candidate
          have strong : confidence = .high := high
          exact ⟨id, rfl, .inr ⟨rfl, strong ▸ rfl⟩⟩
      | none =>
          cases third with
          | some id => cases high
          | none => cases high

theorem ofTiers_medium_ne_high (candidates : List (Option String)) (fallback : String) :
    (ofTiers (candidates.map (tier .medium)) fallback).confidence ≠ .high := by
  induction candidates with
  | nil => exact nofun
  | cons candidate rest ih =>
      cases candidate with
      | some id => exact nofun
      | none => exact ih

end Resolution

-- The name of a callee that has no receiver.

def Python.Callee.bareName? : Python.Callee → Option String
  | .name given => some given
  | .member _ _ => none

def JavaScript.Callee.bareName? : JavaScript.Callee → Option String
  | .name given => some given
  | .member _ _ => none

def Swift.Callee.bareName? : Swift.Callee → Option String
  | .name given => some given
  | .member _ _ => none

namespace Policy

open Registration Resolution SymbolTables

/-- What a resolution says about a call in a module, given the entries made so far. A bare name may
also be known `nearby`, which each language decides for itself. -/
structure Follows (history : List Registration) (module : String) (bareName? : Option String)
    (nearby : String → Prop) (resolution : Resolution) : Prop where
  node : ∀ id, resolution.target = .node id → EntersId history id
  own : ∀ name id, bareName? = some name → symbolIn? history module name = some id →
    resolution = ⟨.node id, .high⟩
  high : resolution.confidence = .high → ∃ name id,
    bareName? = some name ∧ resolution.target = .node id ∧
    (symbolIn? history module name = some id ∨
      symbolIn? history module name = none ∧ ImportedAs history module name false id)
  low : resolution.confidence = .low ↔ resolution.IsExternal
  external : ∀ name, bareName? = some name →
    (resolution.IsExternal ↔ symbolIn? history module name = none ∧ ¬nearby name ∧
      ¬NamesOne history name)

variable (history : List Registration) (module : String)

/-- Candidates for a bare name: one of the module, one that the language finds nearby, one of any
module. -/
theorem follows_bare {second : Option (Confidence × String)} {nearby : String → Prop}
    {name : String}
    (grounded : (ofTiers [tier .high ((replay history).local? module name), second,
      tier .medium ((replay history).uniqueGlobal? name)] name).Grounded (EntersId history))
    (strong : ∀ id, second = some (.high, id) → ImportedAs history module name false id)
    (missing : second = none ↔ ¬nearby name) :
    Follows history module (some name) nearby
      (ofTiers [tier .high ((replay history).local? module name), second,
        tier .medium ((replay history).uniqueGlobal? name)] name) where
  node _ leads := grounded.node leads
  own given id same declared := by
    cases same
    rw [local?_replay, declared]
    rfl
  high confident := by
    obtain ⟨id, leads, origin⟩ := high_ofTiers confident
    rw [local?_replay] at origin
    exact ⟨name, id, rfl, leads,
      origin.imp_right fun imported => ⟨imported.1, strong id imported.2⟩⟩
  low := grounded.low_iff
  external given same := by
    cases same
    have none_tier (confidence : Confidence) (id : Option String) :
        tier confidence id = none ↔ id = none :=
      Option.map_eq_none_iff
    rw [isExternal_ofTiers_iff, ← local?_replay, ← missing, ← uniqueGlobal?_replay_eq_none_iff]
    simp only [List.forall_mem_cons, List.not_mem_nil, false_imp_iff, implies_true, and_true,
      none_tier]

/-- A callee with a receiver never counts as strong. -/
theorem follows_member {nearby : String → Prop} {resolution : Resolution}
    (grounded : resolution.Grounded (EntersId history)) (weak : resolution.confidence ≠ .high) :
    Follows history module none nearby resolution where
  node _ leads := grounded.node leads
  own := nofun
  high confident := absurd confident weak
  low := grounded.low_iff
  external := nofun

theorem python_member_ne_high (tables : SymbolTables) (currentClass : Option String)
    (receiver : Option (List String)) (name : String) :
    (Python.resolveCall tables module currentClass (.member receiver name)).confidence ≠ .high := by
  cases receiver with
  | none => exact nofun
  | some parts => exact ofTiers_medium_ne_high [_, _, _] _

theorem javaScript_member_ne_high (tables : SymbolTables) (currentClass : Option String)
    (receiver : JavaScript.Receiver) (name : String) :
    (JavaScript.resolveCall tables module currentClass (.member receiver name)).confidence ≠
      .high := by
  cases receiver with
  | this => exact ofTiers_medium_ne_high [_] _
  | super => exact ofTiers_medium_ne_high [_] _
  | path parts => exact ofTiers_medium_ne_high [_, _] _
  | other => exact nofun

theorem swift_member_ne_high (tables : SymbolTables) (currentType : Option String)
    (receiver : Swift.Receiver) (name : String) :
    (Swift.resolveCall tables module currentType (.member receiver name)).confidence ≠ .high := by
  cases receiver with
  | self => exact ofTiers_medium_ne_high [_] _
  | super => exact ofTiers_medium_ne_high [_] _
  | name receiver => exact ofTiers_medium_ne_high [_] _
  | other => exact nofun

/-- An imported name counts as nearby in Python and in JavaScript. -/
theorem follows_imported (name : String)
    (grounded : (ofTiers [tier .high ((replay history).local? module name),
      (replay history).boundSymbol? module name, tier .medium ((replay history).uniqueGlobal? name)]
      name).Grounded (EntersId history)) :
    Follows history module (some name)
      (fun name => ∃ renamed id, ImportedAs history module name renamed id)
      (ofTiers [tier .high ((replay history).local? module name),
        (replay history).boundSymbol? module name,
        tier .medium ((replay history).uniqueGlobal? name)] name) := by
  refine follows_bare history module grounded ?_
    (boundSymbol?_replay_eq_none_iff history module name)
  intro id found
  obtain ⟨renamed, confidence, imported⟩ := (boundSymbol?_replay_eq_some_iff history).mp found
  cases renamed with
  | false => exact imported
  | true => cases confidence

/-- The confidence of a call means the same in all languages, whatever was entered before, in
whichever order and however often. Imports count in Python and JavaScript, members of the type
around a call in Swift. -/
theorem resolveCall_follows (enclosing : Option String) :
    (∀ callee : Python.Callee, Follows history module callee.bareName?
      (fun name => ∃ renamed id, ImportedAs history module name renamed id)
      (Python.resolveCall (replay history) module enclosing callee)) ∧
    (∀ callee : JavaScript.Callee, Follows history module callee.bareName?
      (fun name => ∃ renamed id, ImportedAs history module name renamed id)
      (JavaScript.resolveCall (replay history) module enclosing callee)) ∧
    ∀ callee : Swift.Callee, Follows history module callee.bareName?
      (fun name => ∃ typeId, enclosing = some typeId ∧ HasMethod history typeId name)
      (Swift.resolveCall (replay history) module enclosing callee) := by
  have calls := callsOnly_replay history
  refine ⟨fun callee => ?_, fun callee => ?_, fun callee => ?_⟩
  · have grounded := Python.resolveCall_grounded calls module enclosing callee
    cases callee with
    | name name => exact follows_imported history module name grounded
    | member receiver name =>
        exact follows_member history module grounded
          (python_member_ne_high module _ enclosing receiver name)
  · have grounded := JavaScript.resolveCall_grounded calls module enclosing callee
    cases callee with
    | name name => exact follows_imported history module name grounded
    | member receiver name =>
        exact follows_member history module grounded
          (javaScript_member_ne_high module _ enclosing receiver name)
  · have grounded := Swift.resolveCall_grounded calls module enclosing callee
    cases callee with
    | name name =>
        refine follows_bare history module grounded ?_ ?_
        · intro id found
          obtain ⟨_, _, pair⟩ := Option.map_eq_some_iff.mp found
          cases pair
        · rw [tier, Option.map_eq_none_iff, Option.bind_eq_none_iff]
          simp only [methodInHierarchy?_replay_eq_none_iff, not_exists, not_and]
    | member receiver name =>
        exact follows_member history module grounded
          (swift_member_ne_high module _ enclosing receiver name)

end Policy

end SourceAtlas
