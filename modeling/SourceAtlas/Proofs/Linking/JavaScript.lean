/- The JavaScript and TypeScript front-end is lawful: its references are grounded in the tables
and its scripts are safe. -/
import SourceAtlas.Linking.JavaScript
import SourceAtlas.Proofs.Linking.Python

namespace SourceAtlas.JavaScript

open Resolution (candidate_tier_bind grounded_ofTiers grounded_external)

/-- Base expressions mean the same in both languages. -/
theorem resolveBase_eq_python (tables : SymbolTables) (module : String) (base : List String) :
    resolveBase tables module base = Python.resolveBase tables module base := rfl

section Calls

variable {tables : SymbolTables} {p : String → Prop} (h : tables.CallsOnly p)
include h

theorem resolveCall_grounded (module : String) (currentClass : Option String) (callee : Callee) :
    (resolveCall tables module currentClass callee).Grounded p := by
  unfold resolveCall
  split
  · next name =>
      -- A bare name means what it means in Python.
      exact Python.resolveCall_grounded h module currentClass (.name name)
  · apply grounded_ofTiers
    simp only [List.mem_singleton, forall_eq]
    exact candidate_tier_bind (by decide) fun _ _ found => h.methodInHierarchy found
  · apply grounded_ofTiers
    simp only [List.mem_singleton, forall_eq]
    exact candidate_tier_bind (by decide) fun _ _ found => h.methodInHierarchy found
  · apply grounded_ofTiers
    simp only [List.mem_cons, List.not_mem_nil, or_false]
    rintro candidate (rfl | rfl)
    · exact candidate_tier_bind (by decide) fun _ _ found => h.methodInHierarchy found
    · exact candidate_tier_bind (by decide) fun _ _ found => h.symbol found
  · exact grounded_external p _

end Calls

section References

variable {tables : SymbolTables} {p : String → Prop} (h : tables.HoldsOnly p)
include h

theorem resolveBase_grounded (module : String) (base : List String) :
    (resolveBase tables module base).Grounded p := by
  rw [resolveBase_eq_python]
  exact Python.resolveBase_grounded h module base

/-- A relative import reaches a registered file; any other lies outside. -/
theorem importEffects_grounded (unit : SourceUnit Outline) (imported : Import) :
    ∀ effect ∈ importEffects unit tables imported, effect.Grounded p := by
  intro effect member
  unfold importEffects at member
  cases found : relativeFile? tables unit.path imported.specifier with
  | none =>
      simp only [found, List.mem_cons, List.mem_map] at member
      rcases member with rfl | ⟨binding, _, rfl⟩
      · exact grounded_external p _
      · trivial
  | some path =>
      simp only [found, List.mem_cons, List.mem_map] at member
      rcases member with rfl | ⟨binding, _, rfl⟩
      · refine ⟨?_, by simp⟩
        unfold relativeFile? at found
        split at found
        · have registered := List.find?_some found
          obtain ⟨module, known⟩ := Option.isSome_iff_exists.mp registered
          exact h.files known
        · cases found
      · trivial

end References

section Scripts

variable {known : String → Prop} (unit : SourceUnit Outline)

theorem definitionSteps_safe (hf : known unit.fileId) :
    SafeSteps known (definitionSteps unit) [] := by
  have classes := Safe.flatMap_nil fun cls (_ : cls ∈ unit.outline.classes) =>
    unit.typeSteps_safe cls.declaration cls.methods Function.declaration hf
  have functions := unit.functionSteps_safe unit.outline.functions Function.declaration hf
  exact classes.append (functions.mono fun _ h => .inl h)

end Scripts

theorem scripts_eq (units : List (SourceUnit Outline)) (pass : Pass) :
    scripts units pass = pass.scripts units
      (units.map fun unit => Script.fixed (definitionSteps unit))
      importScript baseScript callScript := by
  cases pass <;> rfl

theorem scripts_lawful (units : List (SourceUnit Outline)) :
    Lawful (scripts units) (landmarks units []) := by
  rw [funext (scripts_eq units)]
  refine Pass.scripts_lawful (fun files => ?_) (fun unit hf => ?_) (fun unit => ?_)
    (fun _ unit _ => ?_)
  · exact SafeScripts.map_nil fun unit member =>
      (definitionSteps_safe unit (files unit member)).fixed
  · exact SourceAtlas.importScript_safe unit hf fun holds => importEffects_grounded holds unit
  · exact SourceAtlas.baseScript_safe (fun holds _ _ => holds.classIn) fun holds =>
      resolveBase_grounded holds unit.module
  · exact SourceAtlas.callScript_safe unit fun holds _ hs currentClass callee =>
      SafeSteps.link .calls hs (resolveCall_grounded holds.callsOnly unit.module
        currentClass callee)

end SourceAtlas.JavaScript
