/- Extensions and the types they belong to. While extensions are met one after the other, types may
still be made for them, so the candidates for a name keep changing; but a type that a name means in
a module keeps that meaning, so that the last pass finds the type on which the members are. -/
import SourceAtlas.Proofs.Relations

namespace SourceAtlas

namespace SymbolTables

/-- The candidates for a type by its simple name come from entries of such types. -/
theorem mem_globalTypes {entries : List Registration} {name id : String} {ids : TextSet}
    (found : (entries.foldl record ({} : SymbolTables)).globalTypes[name]? = some ids)
    (member : id ∈ ids) :
    ∃ entry ∈ entries, entry.globalTypeId? name = some id := by
  have inside : id ∈ (entries.foldl record ({} : SymbolTables)).globalTypes.getD name ∅ := by
    rw [Std.ExtTreeMap.getD_eq_getD_getElem?, found]
    exact member
  rcases (mem_foldl_record {} globalTypes mem_globalTypes_record entries name id).mp
    inside with entered | before
  · exact entered
  · simp at before

end SymbolTables

namespace Swift

variable {tables : SymbolTables} {module name id : String}

theorem knownType?_origin {steps : List Step}
    (known : knownType? (({} : SymbolTables).after steps) module name = some id) :
    ∃ home, .symbol home name id true ∈ Step.entries steps := by
  rcases Option.or_eq_some_iff.mp known with own | ⟨-, only⟩
  · rcases SymbolTables.hit_of_look_eq _ (fun tables => tables.classIn? module name)
      (fun tables entry => tables.classIn?_record entry module name) own with ⟨entry, member, hit⟩ |
        empty
    · cases entry with
      | symbol other given id isType =>
          cases isType with
          | false => cases hit
          | true =>
              simp only [Registration.classId?, Option.ite_none_right_eq_some,
                Option.some.injEq] at hit
              obtain ⟨⟨rfl, rfl⟩, rfl⟩ := hit
              exact ⟨other, member⟩
      | _ => cases hit
    · simp [SymbolTables.classIn?] at empty
  · obtain ⟨ids, found, inside⟩ := SymbolTables.mem_of_only? only
    obtain ⟨entry, member, hit⟩ := SymbolTables.mem_globalTypes found inside
    cases entry with
    | symbol other given id isType =>
        cases isType with
        | false => cases hit
        | true =>
            simp only [Registration.globalTypeId?, Option.ite_none_right_eq_some,
              Option.some.injEq] at hit
            obtain ⟨rfl, rfl⟩ := hit
            exact ⟨other, member⟩
    | _ => cases hit

/-- Entries of other types, or of no types at all, leave the meaning of a name. -/
theorem knownType?_foldl {entries : List Registration}
    (other : ∀ entry ∈ entries, entry.globalTypeId? name = none) :
    knownType? (entries.foldl SymbolTables.record tables) module name =
      knownType? tables module name := by
  induction entries generalizing tables with
  | nil => rfl
  | cons entry rest ih =>
      have own := other entry (by simp)
      have classless : entry.classId? module name = none := by
        cases entry with
        | symbol home given id isType =>
            cases isType with
            | false => rfl
            | true =>
                simp only [Registration.globalTypeId?, ite_eq_right_iff, reduceCtorEq,
                  imp_false] at own
                simp [Registration.classId?, own]
        | _ => rfl
      rw [List.foldl_cons, ih fun entry member => other entry (by simp [member])]
      unfold knownType? SymbolTables.uniqueGlobalType?
      rw [tables.classIn?_record, classless, tables.globalTypes_record, own]
      rfl

/-- A new type in another module is no rival for a type of the module itself. -/
theorem knownType?_record_class {other newId : String} (own : tables.classIn? module name = some id)
    (elsewhere : other ≠ module) :
    knownType? (tables.record (.symbol other name newId true)) module name = some id := by
  unfold knownType?
  rw [tables.classIn?_record]
  simp [Registration.classId?, elsewhere, own]

section Members

variable (unit : SourceUnit Outline) (type : TypeDeclaration) (tables : SymbolTables)

def memberEntries (ownerId : String) : List Registration :=
  type.methods.map fun method =>
    .method ownerId method.declaration.name
      (unit.memberId type.declaration.name method.declaration.name)

theorem entries_memberScript : Step.entries (memberScript unit type tables) =
    Step.entries (owner unit tables type).2 ++
      memberEntries unit type (owner unit tables type).1 := by
  have split : memberScript unit type tables =
      (owner unit tables type).2 ++ type.methods.flatMap fun method =>
    unit.methodSteps (owner unit tables type).1 type.declaration.name method.declaration := rfl
  rw [split, Step.entries_append, Step.entries_flatMap, memberEntries, List.map_eq_flatMap]
  rfl

/-- The type of a declaration is its own, one that the name means already, or a new one. -/
theorem owner_cases :
    (type.isExtension = false ∧ owner unit tables type = (unit.symbolId type.declaration.name, []))
      ∨
    (type.isExtension = true ∧ ∃ id, knownType? tables unit.module type.declaration.name = some id ∧
      owner unit tables type = (id, [])) ∨
    (type.isExtension = true ∧ knownType? tables unit.module type.declaration.name = none ∧
      owner unit tables type =
        (unit.symbolId type.declaration.name, unit.symbolSteps type.declaration .class)) := by
  unfold owner
  cases extension : type.isExtension with
  | false => exact .inl ⟨rfl, rfl⟩
  | true =>
      cases known : knownType? tables unit.module type.declaration.name with
      | none => exact .inr (.inr ⟨rfl, rfl, rfl⟩)
      | some id => exact .inr (.inl ⟨rfl, id, rfl, rfl⟩)

theorem knownType?_members (later : SymbolTables) (ownerId module name : String) :
    knownType? ((memberEntries unit type ownerId).foldl SymbolTables.record later) module name =
      knownType? later module name := by
  refine knownType?_foldl fun entry member => ?_
  obtain ⟨method, _, rfl⟩ := List.mem_map.mp member
  rfl

/-- The meaning of a name outlives the members of any declaration. -/
theorem knownType?_after_memberScript {module name id : String}
    (known : knownType? tables module name = some id) :
    knownType? (tables.after (memberScript unit type tables)) module name = some id := by
  rw [SymbolTables.after, entries_memberScript, List.foldl_append, knownType?_members]
  rcases owner_cases unit type tables with ⟨-, made⟩ | ⟨-, found, -, made⟩ | ⟨-, missing, made⟩
  · rw [made]
    exact known
  · rw [made]
    exact known
  · rw [made]
    by_cases same : type.declaration.name = name
    · -- A rival can only be made where the name had no meaning, not even as the only type of all.
      obtain ⟨absent, several⟩ := Option.or_eq_none_iff.mp missing
      rw [same] at absent several
      have own : tables.classIn? module name = some id := by
        rcases Option.or_eq_some_iff.mp known with own | ⟨-, only⟩
        · exact own
        · cases several.symm.trans only
      have elsewhere : unit.module ≠ module := by
        intro here
        rw [here, own] at absent
        cases absent
      rw [← same] at own ⊢
      exact knownType?_record_class own elsewhere
    · refine (knownType?_foldl fun entry member => ?_).trans known
      rw [List.mem_singleton.mp member]
      simp [Registration.globalTypeId?, same]

/-- After its members, the name of an extension means the type that they are on. -/
theorem knownType?_owner (extension : type.isExtension = true) :
    knownType? (tables.after (memberScript unit type tables)) unit.module type.declaration.name =
      some (owner unit tables type).1 := by
  rcases owner_cases unit type tables with ⟨plain, -⟩ | ⟨-, found, known, made⟩ | ⟨-, -, made⟩
  · cases extension.symm.trans plain
  · rw [made]
    exact knownType?_after_memberScript unit type tables known
  · rw [SymbolTables.after, entries_memberScript, List.foldl_append, knownType?_members, made]
    have entered : Step.entries (unit.symbolSteps type.declaration .class) =
      [.symbol unit.module type.declaration.name (unit.symbolId type.declaration.name) true] := rfl
    rw [entered, List.foldl_cons, List.foldl_nil, knownType?, tables.classIn?_record]
    simp [Registration.classId?]

end Members

/-- A declaration in its file, and the type that its members are on. -/
structure Placed where
  unit : SourceUnit Outline
  type : TypeDeclaration
  ownerId : String

def typesOf (units : List (SourceUnit Outline)) : List (SourceUnit Outline × TypeDeclaration) :=
  units.flatMap fun unit => unit.outline.types.map fun type => (unit, type)

def memberScripts (slots : List (SourceUnit Outline × TypeDeclaration)) : List Script :=
  slots.map fun slot => memberScript slot.1 slot.2

/-- The types to which the members of declarations go, one declaration after the other. -/
def place (tables : SymbolTables) : List (SourceUnit Outline × TypeDeclaration) → List Placed
  | [] => []
  | slot :: rest =>
    ⟨slot.1, slot.2, (owner slot.1 tables slot.2).1⟩ ::
      place (tables.after (memberScript slot.1 slot.2 tables)) rest

theorem map_place (tables : SymbolTables) (slots : List (SourceUnit Outline × TypeDeclaration)) :
    ((place tables slots).map fun placed => (placed.unit, placed.type)) = slots := by
  induction slots generalizing tables with
  | nil => rfl
  | cons slot rest ih => rw [place, List.map_cons, ih]

theorem knownType?_stepsFrom (slots : List (SourceUnit Outline × TypeDeclaration))
    (known : knownType? tables module name = some id) :
    knownType? (tables.after (Script.stepsFrom tables (memberScripts slots))) module name =
      some id := by
  induction slots generalizing tables with
  | nil => exact known
  | cons slot rest ih =>
      rw [memberScripts, List.map_cons, Script.stepsFrom, SymbolTables.after_append]
      exact ih (knownType?_after_memberScript slot.1 slot.2 tables known)

/-- When all members are entered, the name of every extension means the type that its members are
on. -/
theorem knownType?_placed {slots : List (SourceUnit Outline × TypeDeclaration)} {placed : Placed}
    (member : placed ∈ place tables slots) (extension : placed.type.isExtension = true) :
    knownType? (tables.after (Script.stepsFrom tables (memberScripts slots))) placed.unit.module
      placed.type.declaration.name = some placed.ownerId := by
  induction slots generalizing tables with
  | nil => cases member
  | cons slot rest ih =>
      rw [memberScripts, List.map_cons, Script.stepsFrom, SymbolTables.after_append]
      rcases List.mem_cons.mp member with rfl | later
      · exact knownType?_stepsFrom rest (knownType?_owner slot.1 slot.2 tables extension)
      · exact ih later

theorem ownerId_of_not_extension {slots : List (SourceUnit Outline × TypeDeclaration)}
    {placed : Placed} (member : placed ∈ place tables slots)
    (plain : placed.type.isExtension = false) :
    placed.ownerId = placed.unit.symbolId placed.type.declaration.name := by
  induction slots generalizing tables with
  | nil => cases member
  | cons slot rest ih =>
      rcases List.mem_cons.mp member with rfl | later
      · rcases owner_cases slot.1 slot.2 tables with ⟨-, made⟩ | ⟨extension, -⟩ | ⟨extension, -⟩
        · simp only [made]
        · cases extension.symm.trans plain
        · cases extension.symm.trans plain
      · exact ih later

theorem memberEntries_subset {slots : List (SourceUnit Outline × TypeDeclaration)} {placed : Placed}
    (member : placed ∈ place tables slots) :
    memberEntries placed.unit placed.type placed.ownerId ⊆
      Step.entries (Script.stepsFrom tables (memberScripts slots)) := by
  induction slots generalizing tables with
  | nil => cases member
  | cons slot rest ih =>
      rw [memberScripts, List.map_cons, Script.stepsFrom, Step.entries_append]
      rcases List.mem_cons.mp member with rfl | later
      · intro entry inside
        rw [entries_memberScript]
        exact List.mem_append_left _ (List.mem_append_right _ inside)
      · exact fun entry inside => List.mem_append_right _ (ih later inside)

end Swift

end SourceAtlas
