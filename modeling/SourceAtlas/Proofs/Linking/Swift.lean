/- The Swift front-end is lawful: its references are grounded in the tables, its scripts are safe,
and every member has a node before its calls are looked at. -/
import SourceAtlas.Linking.Swift
import SourceAtlas.Proofs.Frontend

namespace SourceAtlas.Swift

open Resolution (candidate_tier candidate_tier_bind grounded_ofTiers grounded_external)

section Calls

variable {tables : SymbolTables} {p : String → Prop} (h : tables.CallsOnly p)
include h

theorem resolveCall_grounded (module : String) (currentType : Option String) (callee : Callee) :
    (resolveCall tables module currentType callee).Grounded p := by
  unfold resolveCall
  split
  · apply grounded_ofTiers
    simp only [List.mem_cons, List.not_mem_nil, or_false]
    rintro candidate (rfl | rfl | rfl)
    · exact candidate_tier (by decide) fun _ found => h.symbol found
    · exact candidate_tier_bind (by decide) fun _ _ found => h.methodInHierarchy found
    · exact candidate_tier (by decide) fun _ found => h.uniqueGlobal found
  · apply grounded_ofTiers
    simp only [List.mem_singleton, forall_eq]
    exact candidate_tier_bind (by decide) fun _ _ found => h.methodInHierarchy found
  · apply grounded_ofTiers
    simp only [List.mem_singleton, forall_eq]
    exact candidate_tier_bind (by decide) fun _ _ found => h.methodInHierarchy found
  · apply grounded_ofTiers
    simp only [List.mem_singleton, forall_eq]
    exact candidate_tier_bind (by decide) fun _ _ found => h.methodInHierarchy found
  · exact grounded_external p _

end Calls

section References

variable {tables : SymbolTables} {p : String → Prop} (h : tables.HoldsOnly p)
include h

theorem knownType?_known {module name id : String}
    (found : knownType? tables module name = some id) :
    p id := by
  rcases Option.or_eq_some_iff.mp found with own | ⟨_, only⟩
  · exact h.classIn own
  · exact h.uniqueGlobalType only

theorem ownerId?_known {module id : String} {type : TypeDeclaration}
    (found : ownerId? tables module type = some id) : p id := by
  unfold ownerId? at found
  split at found
  · exact knownType?_known h found
  · exact h.classIn found

theorem resolveBase_grounded (module base : String) :
    (resolveBase tables module base).Grounded p := by
  apply grounded_ofTiers
  simp only [List.mem_cons, List.not_mem_nil, or_false]
  rintro candidate (rfl | rfl)
  · exact candidate_tier (by decide) fun _ found => h.classIn found
  · exact candidate_tier (by decide) fun _ found => h.uniqueGlobalType found

end References

section Scripts

variable {known : String → Prop} (unit : SourceUnit Outline)

/-- The types that a file declares itself. -/
def primaryTypes : List TypeDeclaration :=
  unit.outline.types.filter fun type => !type.isExtension

/-- The ids of the members of one type or extension. -/
def memberIds (type : TypeDeclaration) : List String :=
  type.methods.map fun method => unit.memberId type.declaration.name method.declaration.name

theorem primarySteps_safe (hf : known unit.fileId) : SafeSteps known (primarySteps unit)
    ((primaryTypes unit).map fun type => unit.symbolId type.declaration.name) := by
  have functions := unit.functionSteps_safe unit.outline.functions Function.declaration hf
  have types : SafeSteps known
      ((primaryTypes unit).flatMap fun type => unit.symbolSteps type.declaration .class)
      ((primaryTypes unit).flatMap fun type => [unit.symbolId type.declaration.name]) :=
    Safe.flatMap fun type _ => unit.symbolSteps_safe type.declaration hf (by simp)
  rw [List.map_eq_flatMap]
  exact functions.append (types.mono fun _ h => .inl h)

theorem methods_safe {ownerId : String} (ho : known ownerId) (type : TypeDeclaration) :
    SafeSteps known (type.methods.flatMap fun method =>
      unit.methodSteps ownerId type.declaration.name method.declaration) (memberIds unit type) := by
  rw [memberIds, List.map_eq_flatMap]
  exact Safe.flatMap fun method _ =>
    unit.methodSteps_safe type.declaration.name method.declaration ho

/-- The members of a type find it made by its file, those of an extension find the type that the
tables know or make one. -/
theorem memberScript_safe (type : TypeDeclaration) (hf : known unit.fileId)
    (primary : type.isExtension = false → known (unit.symbolId type.declaration.name)) :
    SafeScript known (memberScript unit type) (memberIds unit type) := by
  intro wider tables sub holds
  unfold memberScript owner
  cases extension : type.isExtension with
  | false => exact methods_safe unit (sub _ (primary extension)) type
  | true =>
      simp only [if_true]
      split
      · next id found => exact methods_safe unit (knownType?_known holds found) type
      · refine ((unit.symbolSteps_safe type.declaration (sub _ hf) (by simp)).append
          (methods_safe unit (.inr (by simp)) type)).weaken ?_
        exact fun id member => List.mem_append_right _ member

theorem importScript_safe (hf : known unit.fileId) : SafeScript known (importScript unit) [] := by
  intro wider tables sub _
  refine importSteps_safe (sub _ hf) [] fun effect member => ?_
  obtain ⟨name, _, rfl⟩ := List.mem_map.mp member
  exact grounded_external wider name

/-- The source of a member's calls is taken from its name, not from the tables. -/
theorem callScript_safe
    (members : ∀ type ∈ unit.outline.types, ∀ id ∈ memberIds unit type, known id) :
    SafeScript known (callScript unit) [] := by
  intro wider tables sub holds
  have grounded := resolveCall_grounded holds.callsOnly unit.module
  have functions : SafeSteps wider (unit.outline.functions.flatMap (functionCallSteps unit tables))
      [] :=
    functionCalls_safe unit holds fun hs callee => SafeSteps.link .calls hs (grounded none callee)
  have types : SafeSteps wider (unit.outline.types.flatMap (typeCallSteps unit tables)) [] := by
    refine Safe.flatMap_nil fun type inType => ?_
    unfold typeCallSteps
    split
    · next typeId _ =>
        refine Safe.flatMap_nil fun method inMethods => ?_
        have source := sub _ (members type inType _ (List.mem_map_of_mem inMethods))
        exact links_safe .calls source fun callee _ => grounded (some typeId) callee
    · exact Safe.nil
  exact functions.append (types.mono fun _ h => .inl h)

end Scripts

/-- The members of all types and extensions of all files. -/
def allMemberIds (units : List (SourceUnit Outline)) : List String :=
  units.flatMap fun unit => unit.outline.types.flatMap (memberIds unit)

theorem definitions_safe {known : String → Prop} (units : List (SourceUnit Outline))
    (files : ∀ unit ∈ units, known unit.fileId) :
    SafeScripts known (scripts units .definitions) (allMemberIds units) := by
  have primary := SafeScripts.map fun unit (member : unit ∈ units) =>
    (primarySteps_safe unit (files unit member)).fixed
  refine (primary.append (Safe.flatMap fun unit inUnits => SafeScripts.map fun type inTypes =>
    memberScript_safe unit type (.inl (files unit inUnits)) fun extension => .inr ?_)).weaken ?_
  · refine List.mem_flatMap.mpr ⟨unit, inUnits, List.mem_map_of_mem (List.mem_filter.mpr ?_)⟩
    exact ⟨inTypes, by simp [extension]⟩
  · exact fun id member => List.mem_append_right _ member

theorem scripts_eq (units : List (SourceUnit Outline)) (pass : Pass) :
    scripts units pass = pass.scripts units
      ((units.map fun unit => Script.fixed (primarySteps unit)) ++
        units.flatMap fun unit => unit.outline.types.map (memberScript unit))
      importScript baseScript callScript := by
  cases pass <;> rfl

theorem scripts_lawful (units : List (SourceUnit Outline)) :
    Lawful (scripts units) (landmarks units (allMemberIds units)) := by
  rw [funext (scripts_eq units)]
  refine Pass.scripts_lawful (definitions_safe units) (fun unit => importScript_safe unit)
    (fun unit => ?_)
    (fun members unit inUnits => ?_)
  · exact SourceAtlas.baseScript_safe (fun holds _ _ => ownerId?_known holds) fun holds =>
      resolveBase_grounded holds unit.module
  · refine callScript_safe unit fun type inTypes id member => members id ?_
    exact List.mem_flatMap.mpr ⟨unit, inUnits, List.mem_flatMap.mpr ⟨type, inTypes, member⟩⟩

end SourceAtlas.Swift
