/- The Python front-end is lawful: its references are grounded in the tables and its scripts are
safe. -/
import SourceAtlas.Linking.Python
import SourceAtlas.Proofs.Frontend

namespace SourceAtlas.Python

open Resolution (candidate_tier candidate_tier_bind grounded_ofTiers grounded_external)

theorem locate?_confidence {tables : SymbolTables} {current dotted name : String}
    {confidence : Confidence} (found : locate? tables current dotted = some (name, confidence)) :
    confidence ≠ .low := by
  simp only [locate?] at found
  split at found
  · cases found
  · split at found
    · cases found
      decide
    · split at found
      · cases found
        decide
      · cases found

section Calls

variable {tables : SymbolTables} {p : String → Prop} (h : tables.CallsOnly p)
include h

theorem methodOnSelf?_known {currentClass : Option String} {receiver : List String}
    {name id : String} (found : methodOnSelf? tables currentClass receiver name = some id) :
    p id := by
  unfold methodOnSelf? at found
  split at found
  · split at found
    · exact h.methodInHierarchy found
    · cases found
  · cases found

theorem resolveCall_grounded (module : String) (currentClass : Option String) (callee : Callee) :
    (resolveCall tables module currentClass callee).Grounded p := by
  unfold resolveCall
  split
  · next name =>
      apply grounded_ofTiers
      simp only [List.mem_cons, List.not_mem_nil, or_false]
      rintro candidate (rfl | rfl | rfl)
      · exact candidate_tier (by decide) fun _ found => h.symbol found
      · exact h.boundSymbol module name
      · exact candidate_tier (by decide) fun _ found => h.uniqueGlobal found
  · next parts name =>
      apply grounded_ofTiers
      simp only [List.mem_cons, List.not_mem_nil, or_false]
      rintro candidate (rfl | rfl | rfl)
      · exact candidate_tier (by decide) fun _ found => methodOnSelf?_known h found
      · exact candidate_tier_bind (by decide) fun _ _ found => h.methodInHierarchy found
      · exact candidate_tier_bind (by decide) fun _ _ found => h.symbol found
  · exact grounded_external p _

end Calls

section References

variable {tables : SymbolTables} {p : String → Prop} (h : tables.HoldsOnly p)
include h

theorem resolveModule_grounded (current dotted label : String) :
    (resolveModule tables (locate? tables current dotted) label).Grounded p := by
  unfold resolveModule
  split
  · next resolution found =>
      obtain ⟨⟨name, confidence⟩, located, known⟩ := Option.bind_eq_some_iff.mp found
      obtain ⟨id, file, same⟩ := Option.map_eq_some_iff.mp known
      subst same
      exact ⟨h.moduleFile file, locate?_confidence located⟩
  · exact grounded_external p label

theorem resolveBase_grounded (module : String) (base : List String) :
    (resolveBase tables module base).Grounded p := by
  unfold resolveBase
  split
  · exact grounded_external p _
  · next name =>
      apply grounded_ofTiers
      simp only [List.mem_cons, List.not_mem_nil, or_false]
      rintro candidate (rfl | rfl | rfl)
      · exact candidate_tier (by decide) fun _ found => h.classIn found
      · exact h.callsOnly.boundSymbol module name
      · exact candidate_tier (by decide) fun _ found => h.uniqueGlobalType found
  · apply grounded_ofTiers
    simp only [List.mem_singleton, forall_eq]
    exact candidate_tier_bind (by decide) fun _ _ found => h.classIn found

theorem blueprintOf?_known {module variableName id : String}
    (found : blueprintOf? tables module variableName = some id) : p id := by
  unfold blueprintOf? at found
  split at found
  · next own =>
      cases found
      exact h.blueprint own
  · split at found
    · exact h.blueprint found
    · cases found

theorem registeredBlueprint?_known {module id : String} {call : Call}
    (found : registeredBlueprint? tables module call = some id) : p id := by
  unfold registeredBlueprint? at found
  split at found
  · split at found
    · obtain ⟨variableName, _, blueprint⟩ := Option.bind_eq_some_iff.mp found
      exact blueprintOf?_known h blueprint
    · cases found
  · cases found

/-- Submodules and modules that an import reaches are files of the repository or outside it. -/
theorem importEffects_grounded (module : String) (imported : Import) :
    ∀ effect ∈ importEffects tables module imported, effect.Grounded p := by
  intro effect member
  cases imported with
  | module dotted localName =>
      simp only [importEffects, List.mem_cons] at member
      rcases member with rfl | bound
      · exact resolveModule_grounded h module dotted dotted
      · cases effect with
        | reach resolution => cases localName <;> simp at bound
        | bind _ _ _ => trivial
  | names level origin names =>
      simp only [importEffects] at member
      split at member
      · cases member
      · simp only [List.mem_append, List.mem_map, List.mem_filterMap] at member
        rcases member with (⟨id, ⟨name, _, file⟩, rfl⟩ | itself) | ⟨name, _, rfl⟩
        · refine ⟨h.moduleFile file, ?_⟩
          cases located : locate? tables module (importedModule module origin level) with
          | none => simp
          | some place => simpa using locate?_confidence located
        · split at itself
          · rw [List.mem_singleton.mp itself]
            exact resolveModule_grounded h module _ _
          · cases itself
        · trivial

end References

section Scripts

variable {known : String → Prop} (unit : SourceUnit Outline)

theorem blueprintSteps_safe (hf : known unit.fileId) (blueprint : Blueprint) :
    SafeSteps known (blueprintSteps unit blueprint)
      [Identifier.blueprint blueprint.variableName] := by
  refine (SafeSteps.adopt ?_ hf (by simp)).append (SafeSteps.register ?_)
  · exact ⟨by simp, Identifier.startsWith_lead .blueprint .external blueprint.variableName⟩
  · intro id member
    exact .inr member

theorem definitionSteps_safe (hf : known unit.fileId) :
    SafeSteps known (definitionSteps unit) [] := by
  have blueprints := Safe.flatMap_nil fun blueprint (_ : blueprint ∈ unit.outline.blueprints) =>
    (blueprintSteps_safe unit hf blueprint).weaken (by simp)
  have classes := Safe.flatMap_nil fun cls (_ : cls ∈ unit.outline.classes) =>
    unit.typeSteps_safe cls.declaration cls.methods Function.declaration hf
  have functions := unit.functionSteps_safe unit.outline.functions Function.declaration hf
  exact (blueprints.append (classes.mono fun _ h => .inl h)).append
    (functions.mono fun _ h => .inl h)

theorem callSteps_safe {tables : SymbolTables} (holds : tables.HoldsOnly known) {source : String}
    (hs : known source) (currentClass : Option String) (call : Call) :
    SafeSteps known (callSteps unit tables currentClass source call) [] := by
  unfold callSteps
  split
  · next blueprint found =>
      exact SafeSteps.connect ⟨source, blueprint, .blueprint, .medium⟩ hs
        (registeredBlueprint?_known holds found) (by simp)
  · exact SafeSteps.link .calls hs
      (resolveCall_grounded holds.callsOnly unit.module currentClass call.callee)

end Scripts

theorem scripts_eq (units : List (SourceUnit Outline)) (pass : Pass) :
    scripts units pass = pass.scripts units
      (units.map fun unit => Script.fixed (definitionSteps unit))
      importScript baseScript callScript := by
  cases pass <;> rfl

theorem scripts_lawful (units : List (SourceUnit Outline)) :
    Lawful (scripts units) (landmarks units []) := by
  rw [funext (scripts_eq units)]
  refine Pass.scripts_lawful (fun files => ?_) (fun unit hf => ?_) (fun unit => ?_)
    (fun _ unit _ => ?_)
  · exact SafeScripts.map_nil fun unit member =>
      (definitionSteps_safe unit (files unit member)).fixed
  · exact SourceAtlas.importScript_safe unit hf fun holds =>
      importEffects_grounded holds unit.module
  · exact SourceAtlas.baseScript_safe (fun holds _ _ => holds.classIn) fun holds =>
      resolveBase_grounded holds unit.module
  · exact SourceAtlas.callScript_safe unit fun holds _ => callSteps_safe unit holds

end SourceAtlas.Python
