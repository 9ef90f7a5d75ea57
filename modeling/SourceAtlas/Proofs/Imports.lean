/- The imports of files in the graph: a file reaches each target once, a target is a file of the
repository or a name outside of it, and no import is without an edge to what it means. Which files
an import means is settled by the modules and the paths that the files of its family have. -/
import SourceAtlas.Proofs.Order
import SourceAtlas.Proofs.Origin
import SourceAtlas.Proofs.References

namespace SourceAtlas

open Step

/-- One import as a file of some language states it. -/
inductive ImportRecord where
  | python (imported : Python.Import)
  | javaScript (imported : JavaScript.Import)
  | swift (module : String)
deriving DecidableEq, Repr

def SourceFile.imports (file : SourceFile) : List ImportRecord :=
  match file.family with
  | .python => (Python.Outline.ofFile file).imports.map .python
  | .javaScript => (JavaScript.Outline.ofFile file).imports.map .javaScript
  | .swift => (Swift.Outline.ofFile file).imports.map .swift

/-- The file of a module of that name inside the module that a `from` clause names. -/
def Python.submodule? (tables : SymbolTables) (module base name : String) : Option String :=
  tables.moduleFile? (Identifier.qualify (((locate? tables module base).map Prod.fst).getD base)
    name)

namespace ImportRecord

variable (tables : SymbolTables) (path module : String)

/-- What an import means to a file with a path and a module. -/
inductive LeadsTo : ImportRecord → String → Prop
  | module (dotted : String) (localName : Option String) :
      LeadsTo (.python (.module dotted localName))
        (Python.resolveModule tables (Python.locate? tables module dotted) dotted).target.id
  | submodule {level : Nat} {origin : Option String} {names : List (String × Option String)}
      {id : String}
      {name : String × Option String} (named : Python.importedModule module origin level ≠ "")
        (listed : name ∈ names)
      (found : Python.submodule? tables module (Python.importedModule module origin level) name.1 =
        some id) :
      LeadsTo (.python (.names level origin names)) id
  | package {level : Nat} {origin : Option String} {names : List (String × Option String)}
      {base : String}
      (resolved : Python.importedModule module origin level = base) (named : base ≠ "")
      (needed : names = [] ∨ ∃ name ∈ names, Python.submodule? tables module base name.1 = none) :
      LeadsTo (.python (.names level origin names))
        (Python.resolveModule tables (Python.locate? tables module base) base).target.id
  | relative {imported : JavaScript.Import} {file : String}
      (found : JavaScript.relativeFile? tables path imported.specifier = some file) :
      LeadsTo (.javaScript imported) (Identifier.file file)
  | foreign {imported : JavaScript.Import}
      (missing : JavaScript.relativeFile? tables path imported.specifier = none) :
      LeadsTo (.javaScript imported) (Identifier.external imported.specifier)
  | outside (name : String) : LeadsTo (.swift name) (Identifier.external name)

/-- Names that are taken from a module whose own name comes out empty. -/
def isVoid (module : String) : ImportRecord → Bool
  | .python (.names level origin _) => Python.importedModule module origin level == ""
  | _ => false

variable {tables path module}

theorem exists_leadsTo {record : ImportRecord} (solid : record.isVoid module = false) :
    ∃ target, record.LeadsTo tables path module target := by
  cases record with
  | python imported =>
      cases imported with
      | module dotted localName => exact ⟨_, .module dotted localName⟩
      | names level origin names =>
          have named : Python.importedModule module origin level ≠ "" := by
            simpa [isVoid] using solid
          cases names with
          | nil => exact ⟨_, .package rfl named (.inl rfl)⟩
          | cons name rest =>
              cases found : Python.submodule? tables module
                (Python.importedModule module origin level) name.1 with
              | none => exact ⟨_, .package rfl named (.inr ⟨name, List.mem_cons_self, found⟩)⟩
              | some id => exact ⟨id, .submodule named List.mem_cons_self found⟩
  | javaScript imported =>
      cases found : JavaScript.relativeFile? tables path imported.specifier with
      | none => exact ⟨_, .foreign found⟩
      | some file => exact ⟨_, .relative found⟩
  | swift name => exact ⟨_, .outside name⟩

end ImportRecord

def ImportEffect.target? : ImportEffect → Option String
  | .reach resolution => some resolution.target.id
  | .bind _ _ _ => none

def ImportEffect.targets (effects : List ImportEffect) : List String := effects.filterMap target?

@[simp] theorem ImportEffect.targets_append (first second : List ImportEffect) :
    targets (first ++ second) = targets first ++ targets second :=
  List.filterMap_append

@[simp] theorem ImportEffect.targets_reach (resolution : Resolution) (rest : List ImportEffect) :
    targets (.reach resolution :: rest) = resolution.target.id :: targets rest :=
  rfl

theorem ImportEffect.targets_eq_nil {effects : List ImportEffect}
    (binds : ∀ effect ∈ effects, effect.target? = none) :
    targets effects = [] :=
  List.filterMap_eq_nil_iff.mpr binds

@[simp] theorem edges_link (source : String) (resolution : Resolution) (kind : EdgeKind) :
    edges (Step.link source resolution kind) = [resolution.edge source kind] := by
  obtain ⟨target, confidence⟩ := resolution
  cases target <;> rfl

/-- The edges of imports go to the targets that were not reached before, once to each. -/
theorem edges_importSteps (source : String) (reached : List String) (effects : List ImportEffect) :
    (∀ edge ∈ edges (importSteps source reached effects),
      edge.source = source ∧ edge.kind = .imports) ∧
      ((edges (importSteps source reached effects)).map GraphEdge.target).Nodup ∧
      ∀ target, target ∈ (edges (importSteps source reached effects)).map GraphEdge.target ↔
        target ∈ ImportEffect.targets effects ∧ target ∉ reached := by
  fun_induction importSteps source reached effects with
  | case1 => simp [edges, ImportEffect.targets]
  | case2 reached module localName binding rest ih => exact ih
  | case3 reached resolution rest target old ih =>
      obtain ⟨form, nodup, members⟩ := ih
      refine ⟨form, nodup, fun other => (members other).trans (and_congr_left fun new => ?_)⟩
      have different : other ≠ target := fun same => new (same ▸ old)
      exact (List.mem_cons.trans (or_iff_right different)).symm
  | case4 reached resolution rest target new ih =>
      obtain ⟨form, nodup, members⟩ := ih
      rw [edges_append, edges_link, List.singleton_append, List.map_cons]
      have fresh : target ∉ (edges (importSteps source (target :: reached) rest)).map
          GraphEdge.target :=
        fun again => ((members target).mp again).2 List.mem_cons_self
      refine ⟨List.forall_mem_cons.mpr ⟨⟨rfl, rfl⟩, form⟩, List.nodup_cons.mpr ⟨fresh, nodup⟩,
        fun other => ?_⟩
      have grown : ImportEffect.targets (.reach resolution :: rest) =
          target :: ImportEffect.targets rest :=
        ImportEffect.targets_reach resolution rest
      have reaches : (resolution.edge source .imports).target = target := rfl
      rw [grown, reaches, List.mem_cons, List.mem_cons, members, List.mem_cons]
      by_cases same : other = target
      · subst same
        exact iff_of_true (.inl rfl) ⟨.inl rfl, new⟩
      · simp [same]

namespace ImportRecord

/-- What an import of a file does. -/
def effects (tables : SymbolTables) (file : SourceFile) (module : String) :
    ImportRecord → List ImportEffect
  | .python imported => Python.importEffects tables module imported
  | .javaScript imported =>
      JavaScript.importEffects ⟨file.path, module, JavaScript.Outline.ofFile file⟩ tables imported
  | .swift name => [.reach (.external name)]

variable {tables : SymbolTables} {file : SourceFile} {module target : String}

/-- Whether the module that names are taken from is reached for the sake of some of them. -/
theorem reaches_package_iff (base : String) (names : List (String × Option String)) :
    ((names.filterMap fun name => Python.submodule? tables module base name.1).length <
      names.length ∨
        names.isEmpty = true) ↔
      names = [] ∨ ∃ name ∈ names, Python.submodule? tables module base name.1 = none := by
  rw [or_comm, List.isEmpty_iff]
  refine or_congr_right ?_
  have atMost := List.length_filterMap_le (fun name => Python.submodule? tables module base name.1)
    names
  have all := @List.filterMap_length_eq_length _ _
    (fun name => Python.submodule? tables module base name.1) names
  constructor
  · intro fewer
    by_contra present
    push Not at present
    have full := all.mpr fun name listed => Option.isSome_iff_ne_none.mpr (present name listed)
    omega
  · rintro ⟨name, listed, missing⟩
    have short : (names.filterMap fun name => Python.submodule? tables module base name.1).length ≠
        names.length := by
      intro full
      have found := all.mp full name listed
      rw [missing] at found
      cases found
    omega

theorem targets_names {level : Nat} {origin : Option String} {names : List (String × Option String)}
    {base : String} (resolved : Python.importedModule module origin level = base)
    (named : base ≠ "") :
    ImportEffect.targets (Python.importEffects tables module (.names level origin names)) =
      (names.filterMap fun name => Python.submodule? tables module base name.1) ++
        if (names.filterMap fun name => Python.submodule? tables module base name.1).length <
          names.length ∨
            names.isEmpty then
          [(Python.resolveModule tables (Python.locate? tables module base) base).target.id]
        else [] := by
  simp only [Python.importEffects, resolved, named, if_false, ImportEffect.targets_append]
  have bindings (home : String) :
      ImportEffect.targets (names.map fun name => .bind module (name.2.getD name.1)
      (.symbol home name.1 (name.2.getD name.1 ≠ name.1))) = [] := by
    refine ImportEffect.targets_eq_nil fun effect member => ?_
    obtain ⟨name, _, rfl⟩ := List.mem_map.mp member
    rfl
  have reached (ids : List String) (confidence : Confidence) :
      ImportEffect.targets (ids.map fun id => .reach ⟨.node id, confidence⟩) = ids := by
    rw [ImportEffect.targets, List.filterMap_map]
    exact List.filterMap_some
  have itself (ids : List String) (resolution : Resolution) :
      ImportEffect.targets
          (if ids.length < names.length ∨ names.isEmpty then [.reach resolution] else []) =
        if ids.length < names.length ∨ names.isEmpty then [resolution.target.id] else [] := by
    split <;> rfl
  rw [bindings, reached, List.append_nil]
  exact congrArg _ (itself _ _)

/-- The names that are modules of their own lead to their files, and the module that they are taken
from is reached for the sake of the others. -/
theorem mem_targets_names {level : Nat} {origin : Option String}
    {names : List (String × Option String)} :
    target ∈ ImportEffect.targets (Python.importEffects tables module (.names level origin names)) ↔
      LeadsTo tables file.path module (.python (.names level origin names)) target := by
  generalize resolved : Python.importedModule module origin level = base
  by_cases empty : base = ""
  · simp only [Python.importEffects, resolved, empty, if_pos]
    refine iff_of_false List.not_mem_nil fun leads => ?_
    cases leads with
    | submodule named => exact named (resolved.trans empty)
    | package same named => exact named (same.symm.trans (resolved.trans empty))
  · rw [targets_names resolved empty]
    constructor
    · intro member
      rcases List.mem_append.mp member with submodule | package
      · obtain ⟨name, listed, found⟩ := List.mem_filterMap.mp submodule
        exact .submodule (resolved ▸ empty) listed (resolved ▸ found)
      · split at package
        · next needed =>
            cases List.mem_singleton.mp package
            exact .package resolved empty ((reaches_package_iff base names).mp needed)
        · cases package
    · intro leads
      cases leads with
      | submodule named listed found =>
          rw [resolved] at found
          exact List.mem_append_left _ (List.mem_filterMap.mpr ⟨_, listed, found⟩)
      | package same named needed =>
          cases resolved.symm.trans same
          refine List.mem_append_right _ ?_
          rw [if_pos ((reaches_package_iff base names).mpr needed)]
          exact List.mem_singleton.mpr rfl

theorem mem_targets_effects (record : ImportRecord) :
    target ∈ ImportEffect.targets (record.effects tables file module) ↔
      record.LeadsTo tables file.path module target := by
  cases record with
  | python imported =>
      cases imported with
      | names level origin names => exact mem_targets_names
      | module dotted localName =>
          have only : ImportEffect.targets
              (effects tables file module (.python (.module dotted localName))) =
              [(Python.resolveModule tables (Python.locate? tables module dotted)
                dotted).target.id] := by
            refine congrArg (List.cons _) (ImportEffect.targets_eq_nil ?_)
            cases localName with
            | some name => simp [ImportEffect.target?]
            | none => cases Text.cutFirst? '.' dotted <;> simp [ImportEffect.target?]
          rw [only, List.mem_singleton]
          refine ⟨fun same => same ▸ .module dotted localName, fun leads => ?_⟩
          cases leads
          rfl
  | javaScript imported =>
      have only (resolution : Resolution) (target : String) :
          ImportEffect.targets (.reach resolution :: imported.bindings.map fun binding =>
            .bind module (binding.meaning target).1 (binding.meaning target).2) =
              [resolution.target.id] := by
        refine congrArg (List.cons _) (ImportEffect.targets_eq_nil fun effect member => ?_)
        obtain ⟨binding, _, rfl⟩ := List.mem_map.mp member
        rfl
      simp only [effects, JavaScript.importEffects]
      cases found : JavaScript.relativeFile? tables file.path imported.specifier with
      | none =>
          rw [only, List.mem_singleton]
          refine ⟨fun same => same ▸ .foreign found, fun leads => ?_⟩
          cases leads with
          | foreign missing => rfl
          | relative other => cases found.symm.trans other
      | some path =>
          rw [only, List.mem_singleton]
          refine ⟨fun same => same ▸ .relative found, fun leads => ?_⟩
          cases leads with
          | foreign missing => cases found.symm.trans missing
          | relative other =>
              cases found.symm.trans other
              rfl
  | swift name =>
      refine List.mem_singleton.trans ⟨fun same => same ▸ .outside name, fun leads => ?_⟩
      cases leads
      rfl

end ImportRecord

/-- A pass over the imports takes the files of a family in turn, and all see the same tables. -/
theorem frontendsOf_steps_imports (files : List SourceFile) (family : Family) :
    (frontendsOf files).steps family .imports = (filesOf family files).flatMap fun file =>
      importSteps (Identifier.file file.path) [] (file.imports.flatMap fun record =>
        record.effects ((frontendsOf files).tablesAfter family Pass.imports.earlier) file
          (moduleNames files file)) := by
  cases family with
  | python =>
      refine (Python.confinedFrontEnd.steps_imports (frontendsOf_suitable files)
        (Python.scripts_frontEnd _)).trans ?_
      rw [Frontends.units, List.flatMap_map]
      refine List.flatMap_congr fun file member => ?_
      rw [SourceFile.imports, (mem_filesOf.mp member).2, List.flatMap_map]
      rfl
  | javaScript =>
      refine (JavaScript.confinedFrontEnd.steps_imports (frontendsOf_suitable files)
        (JavaScript.scripts_frontEnd _)).trans ?_
      rw [Frontends.units, List.flatMap_map]
      refine List.flatMap_congr fun file member => ?_
      rw [SourceFile.imports, (mem_filesOf.mp member).2, List.flatMap_map]
      rfl
  | swift =>
      have fixed : (frontendsOf files).steps .swift .imports = _ := Script.stepsFrom_fixed _ _ _
      rw [fixed, Frontends.units, List.flatMap_map]
      refine List.flatMap_congr fun file member => ?_
      rw [SourceFile.imports, (mem_filesOf.mp member).2, List.flatMap_map, List.map_eq_flatMap]
      rfl

/-- The module look-ups of a build answer with files. -/
theorem isFile_moduleFile? {files : List SourceFile} {family : Family} {pass : Pass}
    {module id : String}
    (found : ((frontendsOf files).tablesAfter family pass.earlier).moduleFile? module = some id) :
    Identifier.isFile id = true := by
  rw [Frontends.tablesAfter_earlier] at found
  rcases SymbolTables.hit_of_look_eq _ (fun tables => tables.moduleFile? module)
    (fun tables entry => tables.moduleFile?_record entry module) found with ⟨entry, member, hit⟩ |
      empty
  · rw [entries_flatMap] at member
    obtain ⟨earlier, _, inside⟩ := List.mem_flatMap.mp member
    have makes := (frontendsOf_makes files family earlier).entry inside
    cases entry with
    | file other path given =>
        simp only [Registration.fileId?, Option.ite_none_right_eq_some, Option.some.injEq] at hit
        rw [← hit.2]
        exact makes
    | _ => cases hit
  · simp [SymbolTables.moduleFile?] at empty

theorem Python.resolveModule_target (tables : SymbolTables) (located : Option (String × Confidence))
    (dotted : String) :
    (∃ module, tables.moduleFile? module = some (resolveModule tables located dotted).target.id) ∨
      (resolveModule tables located dotted).target.id = Identifier.external dotted := by
  unfold resolveModule
  split
  · next resolution found =>
      obtain ⟨⟨module, confidence⟩, _, resolved⟩ := Option.bind_eq_some_iff.mp found
      obtain ⟨id, known, rfl⟩ := Option.map_eq_some_iff.mp resolved
      exact .inl ⟨module, known⟩
  · exact .inr rfl

/-- Imports lead to files and out of the repository. -/
theorem ImportRecord.LeadsTo.form {files : List SourceFile} {family : Family}
    {path module target : String} {record : ImportRecord}
    (leads : record.LeadsTo ((frontendsOf files).tablesAfter family Pass.imports.earlier) path
      module target) :
    Identifier.isFile target = true ∨ Identifier.isExternal target = true := by
  have resolved (located : Option (String × Confidence)) (dotted : String) :=
    Python.resolveModule_target
    ((frontendsOf files).tablesAfter family Pass.imports.earlier) located dotted
  have either {id name : String}
      (reached : (∃ module, ((frontendsOf files).tablesAfter family
        Pass.imports.earlier).moduleFile? module = some id) ∨
        id = Identifier.external name) :
          Identifier.isFile id = true ∨ Identifier.isExternal id = true := by
    rcases reached with ⟨module, known⟩ | rfl
    · exact .inl (isFile_moduleFile? known)
    · exact .inr (Identifier.startsWith_lead .external .external name)
  cases leads with
  | module dotted localName => exact either (resolved _ _)
  | submodule named listed found => exact .inl (isFile_moduleFile? found)
  | package same named needed => exact either (resolved _ _)
  | relative found => exact .inl (Identifier.startsWith_lead .file .file _)
  | foreign missing => exact .inr (Identifier.startsWith_lead .external .external _)
  | outside name => exact .inr (Identifier.startsWith_lead .external .external name)

section Edges

variable (files : List SourceFile)

/-- The tables that the imports of a file are resolved with. -/
def importTables (file : SourceFile) : SymbolTables :=
  (workspaceBefore files .imports file.family).tables.get file.family

/-- What a file imports, by its records. -/
def Imported (file : SourceFile) (target : String) : Prop :=
  ∃ record ∈ file.imports, record.LeadsTo (importTables files file) file.path
    (moduleNames files file) target

/-- The edges of the imports of one file. -/
def importEdges (file : SourceFile) : List GraphEdge :=
  edges (importSteps (Identifier.file file.path) [] (file.imports.flatMap fun record =>
    record.effects (importTables files file) file (moduleNames files file)))

variable {files}

theorem importEdges_form {file : SourceFile} {edge : GraphEdge}
    (member : edge ∈ importEdges files file) :
    edge.source = Identifier.file file.path ∧ edge.kind = .imports :=
  (edges_importSteps _ _ _).1 edge member

theorem mem_importEdges_target {file : SourceFile} {target : String} :
    target ∈ (importEdges files file).map GraphEdge.target ↔ Imported files file target := by
  refine ((edges_importSteps _ _ _).2.2 target).trans ?_
  rw [and_iff_left List.not_mem_nil, ImportEffect.targets, List.filterMap_flatMap, List.mem_flatMap]
  exact exists_congr fun record => and_congr_right fun _ => ImportRecord.mem_targets_effects record

theorem edges_steps_imports (family : Family) :
    edges ((frontendsOf files).steps family .imports) =
      (filesOf family files).flatMap (importEdges files) := by
  rw [frontendsOf_steps_imports, edges_flatMap]
  refine List.flatMap_congr fun file member => ?_
  rw [importEdges, importTables, workspaceBefore_tables, (mem_filesOf.mp member).2]

/-- The edges of imports in a build are those of its files, family by family. -/
theorem filter_imports {result : GraphResult} (built : buildGraph files = .ok result) :
    (result.edges.filter fun edge => edge.kind == .imports) =
      (Family.all.flatMap fun family => filesOf family files).flatMap (importEdges files) := by
  obtain ⟨same, rebuilt, drawn⟩ := buildGraph_edges files
  cases built.symm.trans rebuilt
  have one : ∀ (pass : Pass) (kind : EdgeKind), (kind == .imports) = true → pass ≠ .imports →
      pass.links kind = false := by
    intro pass kind
    cases pass <;> cases kind <;> decide
  refine ((congrArg (List.filter _) drawn).trans (filter_edges one rfl)).trans ?_
  rw [List.flatMap_assoc]
  refine List.flatMap_congr fun family _ => ?_
  rw [edges_steps_imports, List.filter_eq_self]
  intro edge member
  obtain ⟨file, _, inside⟩ := List.mem_flatMap.mp member
  simp [(importEdges_form inside).2]

/-- Taken family by family, the files are the same. -/
theorem perm_filesOf (files : List SourceFile) :
    (Family.all.flatMap fun family => filesOf family files).Perm files := by
  refine perm_flatMap_filter (by decide) SourceFile.family fun file _ => ?_
  cases file.family <;> decide

/-- Edges of different files have different sources, and the edges of one file different targets. -/
theorem nodup_importEdges {list : List SourceFile} (distinct : (list.map SourceFile.path).Nodup) :
    ((list.flatMap (importEdges files)).map fun edge => (edge.source, edge.target)).Nodup := by
  rw [List.map_flatMap, List.nodup_flatMap]
  constructor
  · intro file _
    have targets : ((importEdges files file).map GraphEdge.target).Nodup :=
      (edges_importSteps _ _ _).2.1
    refine List.Nodup.of_map Prod.snd ?_
    rw [List.map_map]
    exact targets
  · refine (List.pairwise_map.mp distinct).imp fun different pair here there => ?_
    obtain ⟨edge, member, rfl⟩ := List.mem_map.mp here
    obtain ⟨other, alsoMember, same⟩ := List.mem_map.mp there
    have sources : other.source = edge.source := congrArg Prod.fst same
    rw [(importEdges_form member).1, (importEdges_form alsoMember).1] at sources
    exact different (Identifier.file_inj.mp sources).symm

theorem mem_edges_imports {result : GraphResult} (built : buildGraph files = .ok result)
    {edge : GraphEdge} :
    edge ∈ result.edges ∧ edge.kind = .imports ↔ ∃ file ∈ files, edge ∈ importEdges files file := by
  have filtered := filter_imports built
  calc edge ∈ result.edges ∧ edge.kind = .imports
      ↔ edge ∈ result.edges.filter fun edge => edge.kind == .imports := by simp
    _ ↔ edge ∈ (Family.all.flatMap fun family => filesOf family files).flatMap
      (importEdges files) := by rw [filtered]
    _ ↔ ∃ file ∈ files, edge ∈ importEdges files file := by
        rw [List.mem_flatMap]
        exact exists_congr fun file => and_congr_left fun _ => (perm_filesOf files).mem_iff

theorem imports_join {result : GraphResult} (built : buildGraph files = .ok result)
    {edge : GraphEdge} (member : edge ∈ result.edges) (kind : edge.kind = .imports) :
    (∃ source, result.nodes[edge.source]? = some source ∧ source.kind = .file) ∧
      ∃ target, result.nodes[edge.target]? = some target ∧
        (target.kind = .file ∨ target.kind = .external) := by
  obtain ⟨file, _, inside⟩ := (mem_edges_imports built).mp ⟨member, kind⟩
  obtain ⟨record, _, leads⟩ := mem_importEdges_target.mp (List.mem_map_of_mem inside)
  obtain ⟨⟨source, found⟩, target, alsoFound⟩ := joined_of_mem_edges built member
  refine ⟨⟨source, found, (buildGraph_isFile_iff built found).mpr ?_⟩, target, alsoFound, ?_⟩
  · rw [(importEdges_form inside).1]
    exact Identifier.startsWith_lead .file .file file.path
  · rw [importTables, workspaceBefore_tables] at leads
    exact leads.form.imp (buildGraph_isFile_iff built alsoFound).mpr
      (buildGraph_isExternal_iff built alsoFound).mpr

end Edges

/-- The imports of a build. No two edges have the same ends, each goes from a file to a file or to a
name outside of the repository, the edges of a file go to just what its records lead to, and a
record that is not void leads somewhere. -/
theorem buildGraph_imports {files : List SourceFile}
    (distinct : (files.map SourceFile.path).Nodup) :
    ∃ result, buildGraph files = .ok result ∧
      ((result.edges.filter fun edge => edge.kind == .imports).map fun edge =>
        (edge.source, edge.target)).Nodup ∧
      (∀ edge ∈ result.edges, edge.kind = .imports →
        (∃ source, result.nodes[edge.source]? = some source ∧ source.kind = .file) ∧
          ∃ target, result.nodes[edge.target]? = some target ∧
            (target.kind = .file ∨ target.kind = .external)) ∧
      ∀ file ∈ files,
        (∀ target, Imported files file target ↔ ∃ edge ∈ result.edges,
          edge.kind = .imports ∧ edge.source = Identifier.file file.path ∧ edge.target = target) ∧
        ∀ record ∈ file.imports,
          record.isVoid (moduleNames files file) = false → ∃ edge ∈ result.edges,
          edge.kind = .imports ∧ edge.source = Identifier.file file.path ∧
            record.LeadsTo (importTables files file) file.path (moduleNames files file)
              edge.target := by
  obtain ⟨result, built, _⟩ := buildGraph_edges files
  have drawn {file : SourceFile} (member : file ∈ files) {target : String}
      (imported : Imported files file target) :
      ∃ edge ∈ result.edges, edge.kind = .imports ∧ edge.source = Identifier.file file.path ∧
        edge.target = target := by
    obtain ⟨edge, inside, reached⟩ := List.mem_map.mp (mem_importEdges_target.mpr imported)
    obtain ⟨listed, kind⟩ := (mem_edges_imports built).mpr ⟨file, member, inside⟩
    exact ⟨edge, listed, kind, (importEdges_form inside).1, reached⟩
  refine ⟨result, built, ?_, fun edge => imports_join built,
    fun file member => ⟨fun target => ⟨drawn member, ?_⟩, ?_⟩⟩
  · rw [filter_imports built]
    exact nodup_importEdges (((perm_filesOf files).map _).nodup_iff.mpr distinct)
  · rintro ⟨edge, listed, kind, source, rfl⟩
    obtain ⟨other, alsoMember, inside⟩ := (mem_edges_imports built).mp ⟨listed, kind⟩
    -- The path in the source of the edge tells which file it belongs to.
    have path : other.path = file.path :=
      Identifier.file_inj.mp ((importEdges_form inside).1.symm.trans source)
    cases List.inj_on_of_nodup_map distinct alsoMember member path
    exact mem_importEdges_target.mp (List.mem_map_of_mem inside)
  · intro record stated solid
    obtain ⟨target, leads⟩ := record.exists_leadsTo solid
    obtain ⟨edge, listed, kind, source, rfl⟩ := drawn member ⟨record, stated, leads⟩
    exact ⟨edge, listed, kind, source, leads⟩

/-- Names from a package, one of them a module of its own, and the same module once more. -/
def packageClient : SourceFile where
  path := "main.py"
  language := .python
  text := "from lib import util, helper\nimport lib.util\nimport os\n"
  tree := some (.plain "module" none 0 55
    [.plain "import_from_statement" none 0 28
      [.plain "dotted_name" (some "module_name") 5 8 [],
       .plain "dotted_name" (some "name") 16 20 [],
       .plain "dotted_name" (some "name") 22 28 []],
     .plain "import_statement" none 29 44 [.plain "dotted_name" (some "name") 36 44 []],
     .plain "import_statement" none 45 54 [.plain "dotted_name" (some "name") 52 54 []]])

def emptyModule (path : String) : SourceFile where
  path := path
  language := .python
  text := ""
  tree := some (.plain "module" none 0 0 [])

theorem buildGraph_imports_package :
    let files := [packageClient, emptyModule "lib/__init__.py", emptyModule "lib/util.py"]
    ∃ result, buildGraph files = .ok result ∧
      (result.edges.filter fun edge => edge.kind == .imports) =
        [⟨"file:main.py", "file:lib/util.py", .imports, .high⟩,
         ⟨"file:main.py", "file:lib/__init__.py", .imports, .high⟩,
         ⟨"file:main.py", "external:os", .imports, .low⟩] ∧
      packageClient.imports.length = 3 ∧
      ∀ record ∈ packageClient.imports,
        record.isVoid (moduleNames files packageClient) = false → ∃ edge ∈ result.edges,
        edge.kind = .imports ∧ edge.source = Identifier.file packageClient.path ∧
          record.LeadsTo (importTables files packageClient) packageClient.path
            (moduleNames files packageClient)
            edge.target := by
  intro files
  have distinct : (files.map SourceFile.path).Nodup := by decide
  obtain ⟨result, built, _, _, each⟩ := buildGraph_imports distinct
  have drawn : (buildGraph files).toOption.map
      (fun graph => graph.edges.filter fun edge => edge.kind == .imports) =
      some [⟨"file:main.py", "file:lib/util.py", .imports, .high⟩,
        ⟨"file:main.py", "file:lib/__init__.py", .imports, .high⟩,
        ⟨"file:main.py", "external:os", .imports, .low⟩] := by decide +kernel
  rw [built] at drawn
  exact ⟨result, built, Option.some.inj drawn, by decide +kernel,
    (each packageClient (by simp [files])).2⟩

end SourceAtlas
