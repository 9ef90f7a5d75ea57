/- Bases that lead to types. A base is looked for among the types of its module, the imported
symbols and the types of that name. All tiers but the imports know types alone, so a base leads to
something else exactly where an import gave its name to a symbol that is no type. -/
import SourceAtlas.Proofs.History
import SourceAtlas.Proofs.Imports

namespace SourceAtlas

namespace Registration

/-- An entry of a type with this id, or of a method that makes it a type. -/
def EntersType (history : List Registration) (id : String) : Prop :=
  (∃ module name, .symbol module name id true ∈ history) ∨ ∃ name method,
    .method id name method ∈ history

/-- A single name that a module has no type for, and that was last imported for a symbol which is no
type. -/
def Misbound (history : List Registration) (module : String) (base : List String) (id : String) :
    Prop :=
  ∃ name renamed, base = [name] ∧ (∀ other, .symbol module name other true ∉ history) ∧
    ImportedAs history module name renamed id ∧ ¬EntersType history id

end Registration

open Registration

namespace SymbolTables

variable {history : List Registration} {module name id : String}

theorem entersType_of_classIn? (found : (replay history).classIn? module name = some id) :
    EntersType history id := by
  obtain ⟨before, _, after, rfl, rfl, -⟩ := (classIn?_replay_eq_some_iff history).mp found
  exact .inl ⟨module, name, by simp⟩

theorem entersType_of_uniqueGlobalType?
    (found : (replay history).uniqueGlobalType? name = some id) :
    EntersType history id := by
  obtain ⟨module, entered⟩ := ((uniqueGlobalType?_replay_eq_some_iff history).mp found id).mpr rfl
  exact .inl ⟨module, name, entered⟩

theorem classIn?_replay_eq_none_iff :
    (replay history).classIn? module name = none ↔ ∀ other,
      .symbol module name other true ∉ history := by
  have nothing : empty.classIn? module name = none := by simp [empty, classIn?]
  rw [replay, look_foldl_record empty (classIn? · module name) (fun _ _ => classIn?_record _ _ _ _),
    nothing, Option.or_none, List.findSome?_eq_none_iff]
  simp only [List.mem_reverse, Option.eq_none_iff_forall_ne_some, ne_eq, classId?_eq_some_iff]
  constructor
  · intro missed other member
    exact missed _ member other rfl
  · rintro missed _ member other rfl
    exact missed other member

end SymbolTables

open SymbolTables Resolution

section Tiers

variable {history : List Registration} {module id : String} {base : List String}

/-- A base that leads to a node leads to a type, or its name was imported for something else. -/
theorem entersType_or_misbound
    (leads : (Python.resolveBase (replay history) module base).target = .node id) :
    EntersType history id ∨ Misbound history module base id := by
  unfold Python.resolveBase at leads
  split at leads
  · cases leads
  · next name =>
      cases own : (replay history).classIn? module name with
      | some found =>
          rw [own] at leads
          cases leads
          exact .inl (entersType_of_classIn? own)
      | none =>
          cases bound : (replay history).boundSymbol? module name with
          | some candidate =>
              obtain ⟨confidence, found⟩ := candidate
              rw [own, bound] at leads
              cases leads
              obtain ⟨renamed, -, imported⟩ := (boundSymbol?_replay_eq_some_iff history).mp bound
              by_cases type : EntersType history id
              · exact .inl type
              · exact .inr ⟨name, renamed, rfl, classIn?_replay_eq_none_iff.mp own, imported, type⟩
          | none =>
              cases unique : (replay history).uniqueGlobalType? name with
              | some found =>
                  rw [own, bound, unique] at leads
                  cases leads
                  exact .inl (entersType_of_uniqueGlobalType? unique)
              | none =>
                  rw [own, bound, unique] at leads
                  cases leads
  · -- A dotted base has one tier, the types of the module before its last dot.
    refine .inl (Grounded.node (p := EntersType history)
      (grounded_ofTiers _ fun candidate member => ?_) leads)
    rw [List.mem_singleton.mp member]
    exact candidate_tier_bind (by decide) fun home found known => entersType_of_classIn? known

theorem resolveBase_of_misbound (misbound : Misbound history module base id) :
    (Python.resolveBase (replay history) module base).target = .node id := by
  obtain ⟨name, renamed, rfl, undeclared, imported, -⟩ := misbound
  have bound := (boundSymbol?_replay_eq_some_iff history).mpr ⟨renamed, rfl, imported⟩
  simp only [Python.resolveBase, classIn?_replay_eq_none_iff.mpr undeclared, bound]
  rfl

theorem hasType_eq_false_iff : (replay history).hasType id = false ↔ ¬EntersType history id := by
  rw [← Bool.not_eq_true, hasType_replay_iff]
  rfl

theorem resolveBase_strays_iff :
    (Python.resolveBase (replay history) module base).target = .node id ∧
      (replay history).hasType id = false ↔
      Misbound history module base id := by
  rw [hasType_eq_false_iff]
  constructor
  · rintro ⟨leads, other⟩
    exact (entersType_or_misbound leads).resolve_left other
  · intro misbound
    have leads := resolveBase_of_misbound misbound
    obtain ⟨-, -, -, -, -, other⟩ := misbound
    exact ⟨leads, other⟩

end Tiers

/-- The bases of the classes in a file, where imports can give a name to a base. -/
def SourceFile.superclasses (file : SourceFile) : List (List String) :=
  match file.family with
  | .python => (Python.Outline.ofFile file).classes.flatMap Python.Class.bases
  | .javaScript => (JavaScript.Outline.ofFile file).classes.flatMap JavaScript.Class.bases
  | .swift => []

/-- The entries that a family makes before the last pass of a build. -/
def entriesBefore (files : List SourceFile) (family : Family) : List Registration :=
  Step.entries (Pass.relations.earlier.flatMap ((frontendsOf files).steps family))

/-- The tables of a family when a build is done. -/
def finalTables (files : List SourceFile) (family : Family) : SymbolTables :=
  (buildWorkspace files).state.tables.get family

/-- Every base leads to a type, in the graph as in the tables. -/
structure Rooted (files : List SourceFile) (result : GraphResult) : Prop where
  edges : ∀ edge ∈ result.edges, edge.kind = .inherits →
    (∃ label, edge.target = Identifier.external label) ∨
      ∃ family, (finalTables files family).hasType edge.target = true
  bases : ∀ family typeId, ∀ base ∈ (finalTables files family).basesOf typeId,
    (finalTables files family).hasType base = true

section Build

open Step

variable (files : List SourceFile) (family : Family)

theorem tablesAfter_eq_replay :
    (frontendsOf files).tablesAfter family Pass.relations.earlier =
      replay (entriesBefore files family) :=
  Frontends.tablesAfter_earlier _ family .relations

theorem finalTables_eq :
    finalTables files family =
      (replay (entriesBefore files family)).after
        ((frontendsOf files).steps family .relations) := by
  obtain ⟨-, follows⟩ := runPasses_frontendsOf files inOrder_passOrder (by decide)
  have passes : passesOf family passOrder = Pass.relations.earlier ++ [.relations] := by
    cases family <;> rfl
  have same := follows.tables family
  rw [passes, Frontends.tablesAfter, List.foldl_append] at same
  rw [← tablesAfter_eq_replay]
  exact same

theorem hasType_finalTables (id : String) :
    (finalTables files family).hasType id = (replay (entriesBefore files family)).hasType id := by
  obtain ⟨bases, same⟩ := (Frontends.steps_suit (frontendsOf_suitable files) family
    .relations).after_bases
    (replay (entriesBefore files family))
  rw [finalTables_eq, same]
  rfl

theorem mem_basesOf_finalTables {typeId base : String} :
    base ∈ (finalTables files family).basesOf typeId ↔
    ∃ listed, .bases typeId listed ∈ entries ((frontendsOf files).steps family .relations) ∧
      base ∈ listed := by
  have whole : finalTables files family =
      replay (entriesBefore files family ++
        entries ((frontendsOf files).steps family .relations)) := by
    rw [finalTables_eq, SymbolTables.after, replay, replay, List.foldl_append]
  rw [whole, basesOf_replay, mem_flatMap_basesFor]
  refine exists_congr fun listed => and_congr_left fun _ => ?_
  rw [List.mem_append, or_iff_right]
  intro early
  -- No earlier pass may enter bases.
  rw [entriesBefore, entries_flatMap] at early
  obtain ⟨pass, before, entered⟩ := List.mem_flatMap.mp early
  have suits := (Frontends.steps_suit (frontendsOf_suitable files) family pass).entry entered
  cases pass with
  | relations => simp [Pass.earlier] at before
  | _ => cases suits

end Build

section Stated

open Step

@[simp] theorem nodeId?_eq_some_iff {resolution : Resolution} {id : String} :
    resolution.nodeId? = some id ↔ resolution.target = .node id := by
  obtain ⟨target, confidence⟩ := resolution
  cases target <;> simp [Resolution.nodeId?]

@[simp] theorem edges_baseSteps (typeId : String) (resolutions : List Resolution) :
    edges (baseSteps typeId resolutions) = resolutions.map fun resolution =>
      resolution.edge typeId .inherits := by
  simp only [baseSteps, edges_append, edges_flatMap, edges_link, List.map_eq_flatMap]
  exact List.append_nil _

@[simp] theorem entries_baseSteps (typeId : String) (resolutions : List Resolution) :
    entries (baseSteps typeId resolutions) =
      [.bases typeId (resolutions.filterMap Resolution.nodeId?)] := by
  have silent : entries (resolutions.flatMap fun resolution =>
      Step.link typeId resolution .inherits) = [] := by
    rw [entries_flatMap, List.flatMap_eq_nil_iff]
    rintro ⟨target, confidence⟩ -
    cases target <;> rfl
  rw [baseSteps, entries_append, silent]
  rfl

theorem Step.Each.edge {steps : List Step} {edge : GraphEdge} (calls : Each IsCall steps)
    (member : edge ∈ edges steps) : edge.kind.isCall = true := by
  obtain ⟨step, inside, same⟩ := List.mem_filterMap.mp member
  have call := calls step inside
  cases step with
  | connect other =>
      cases same
      exact call
  | _ => cases same

/-- What the last pass of a family does for bases: the types it does so for, each with what its
bases refer to. -/
structure Frontends.Extends (frontends : Frontends) (family : Family)
    (stated : List (String × List Resolution)) :
    Prop where
  edges : ∀ edge ∈ edges (frontends.steps family .relations), edge.kind = .inherits →
    ∃ type ∈ stated, ∃ resolution ∈ type.2, edge = resolution.edge type.1 .inherits
  entries : entries (frontends.steps family .relations) =
    stated.map fun type => .bases type.1 (type.2.filterMap Resolution.nodeId?)

theorem Frontends.extends_of_scripts {α : Type} {frontends : Frontends} {family : Family}
    {units : List α} {base call : α → Script}
    {stated : α → SymbolTables → List (String × List Resolution)} (suitable : frontends.Suitable)
    (scripts : frontends family .relations = units.map base ++ units.map call)
    (blind : ∀ unit seen bases, base unit { seen with bases } = base unit seen)
    (calls : ∀ unit seen, Each IsCall (call unit seen))
    (same : ∀ unit seen, base unit seen = (stated unit seen).flatMap fun type =>
      baseSteps type.1 type.2) :
    frontends.Extends family
      (units.flatMap fun unit =>
        stated unit (frontends.tablesAfter family Pass.relations.earlier)) := by
  obtain ⟨-, taken⟩ := steps_relations suitable scripts blind calls
  simp only [same, ← List.flatMap_assoc] at taken
  refine ⟨fun edge member inherits => ?_, ?_⟩
  · rw [taken, edges_append, edges_flatMap] at member
    rcases List.mem_append.mp member with base | called
    · obtain ⟨type, listed, inside⟩ := List.mem_flatMap.mp base
      rw [edges_baseSteps] at inside
      obtain ⟨resolution, there, rfl⟩ := List.mem_map.mp inside
      exact ⟨type, listed, resolution, there, rfl⟩
    · have call := (Each.flatMap fun unit _ => calls unit _).edge called
      rw [inherits] at call
      cases call
  · rw [taken, entries_append, entries_flatMap,
      (Each.flatMap fun unit _ => calls unit _).entries_eq_nil, List.append_nil,
      List.map_eq_flatMap]
    simp only [entries_baseSteps]

/-- All bases that a family resolves to nodes are types. -/
def TypesOnly (tables : SymbolTables) (stated : List (String × List Resolution)) : Prop :=
  ∀ type ∈ stated, ∀ resolution ∈ type.2, ∀ id,
    resolution.target = .node id → tables.hasType id = true

variable {files : List SourceFile}

theorem bases_iff_typesOnly {family : Family} {stated : List (String × List Resolution)}
    (extending : (frontendsOf files).Extends family stated) :
    (∀ typeId, ∀ base ∈ (finalTables files family).basesOf typeId,
      (finalTables files family).hasType base = true) ↔
      TypesOnly (replay (entriesBefore files family)) stated := by
  simp only [hasType_finalTables, mem_basesOf_finalTables, extending.entries]
  constructor
  · intro types type listed resolution inside id leads
    refine types type.1 id ⟨_, List.mem_map_of_mem listed, ?_⟩
    exact List.mem_filterMap.mpr ⟨resolution, inside, nodeId?_eq_some_iff.mpr leads⟩
  · rintro types typeId base ⟨listed, entered, member⟩
    obtain ⟨type, there, same⟩ := List.mem_map.mp entered
    cases same
    obtain ⟨resolution, inside, leads⟩ := List.mem_filterMap.mp member
    exact types type there resolution inside base (nodeId?_eq_some_iff.mp leads)

/-- A build is rooted when every family is, and only then: a base is recorded for each edge to a
node. -/
theorem rooted_iff_typesOnly {stated : Family → List (String × List Resolution)}
    (extending : ∀ family, (frontendsOf files).Extends family (stated family)) :
    ∃ result, buildGraph files = .ok result ∧
      (Rooted files result ↔ ∀ family,
        TypesOnly (replay (entriesBefore files family)) (stated family)) := by
  obtain ⟨result, built, drawn⟩ := buildGraph_edges files
  refine ⟨result, built, fun rooted family =>
    (bases_iff_typesOnly (extending family)).mp (rooted.bases family), ?_⟩
  intro types
  -- An edge to a base is one of the last pass, which knows what the base refers to.
  refine ⟨fun edge member inherits => ?_,
    fun family => (bases_iff_typesOnly (extending family)).mpr (types family)⟩
  have wanted : edge ∈ result.edges.filter fun edge => edge.kind.isBase :=
    List.mem_filter.mpr ⟨member, by rw [inherits]; rfl⟩
  have last : ∀ (pass : Pass) (kind : EdgeKind),
      kind.isBase = true → pass ≠ .relations → pass.links kind = false := by
    intro pass kind
    cases pass <;> cases kind <;> decide
  rw [drawn, filter_edges last rfl] at wanted
  obtain ⟨family, -, inside⟩ := List.mem_flatMap.mp wanted
  obtain ⟨type, listed, resolution, there, rfl⟩ :=
    (extending family).edges edge (List.mem_filter.mp inside).1 inherits
  cases leads : resolution.target with
  | node id =>
      refine .inr ⟨family, ?_⟩
      rw [hasType_finalTables, Resolution.edge, leads]
      exact types family type listed resolution there id leads
  | external label => exact .inl ⟨label, by rw [Resolution.edge, leads]; rfl⟩

theorem typesOnly_flatMap {α : Type} {tables : SymbolTables} {units : List α}
    {part : α → List (String × List Resolution)} :
    TypesOnly tables (units.flatMap part) ↔ ∀ unit ∈ units, TypesOnly tables (part unit) := by
  simp only [TypesOnly, List.mem_flatMap]
  constructor
  · intro types unit member type listed
    exact types type ⟨unit, member, listed⟩
  · rintro types type ⟨unit, member, listed⟩
    exact types unit member type listed

end Stated

section Families

variable {files : List SourceFile}

/-- The classes of a unit that its tables know, with what their bases refer to. -/
def SourceUnit.stated {α : Type} (unit : SourceUnit α)
    (classes : List (String × List (List String))) (tables : SymbolTables) :
    List (String × List Resolution) :=
  classes.flatMap fun cls => ((tables.classIn? unit.module cls.1).map fun id =>
    (id, cls.2.map (Python.resolveBase tables unit.module))).toList

def Python.Outline.supers (outline : Python.Outline) : List (String × List (List String)) :=
  outline.classes.map fun cls => (cls.declaration.name, cls.bases)

def JavaScript.Outline.supers (outline : JavaScript.Outline) : List (String × List (List String)) :=
  outline.classes.map fun cls => (cls.declaration.name, cls.bases)

def Swift.stated (unit : SourceUnit Swift.Outline) (tables : SymbolTables) :
    List (String × List Resolution) :=
  unit.outline.types.flatMap fun type => ((Swift.ownerId? tables unit.module type).map fun id =>
    (id, type.bases.map (Swift.resolveBase tables unit.module))).toList

/-- The steps for the bases of the classes that the tables know are those for the bases stated. -/
theorem SourceUnit.baseSteps_stated {α γ : Type} (unit : SourceUnit α) (tables : SymbolTables)
    (classes : List γ) (type : γ → Declaration) (bases : γ → List (List String)) :
    (classes.flatMap fun cls =>
      match tables.classIn? unit.module (type cls).name with
      | some classId => baseSteps classId ((bases cls).map (Python.resolveBase tables unit.module))
      | none => []) =
      (unit.stated (classes.map fun cls => ((type cls).name, bases cls)) tables).flatMap fun type =>
        baseSteps type.1 type.2 := by
  rw [SourceUnit.stated, List.flatMap_map, List.flatMap_assoc]
  refine List.flatMap_congr fun cls _ => ?_
  cases tables.classIn? unit.module (type cls).name <;> simp

theorem Swift.baseScript_eq (unit : SourceUnit Swift.Outline) (tables : SymbolTables) :
    Swift.baseScript unit tables = (Swift.stated unit tables).flatMap fun type =>
      baseSteps type.1 type.2 := by
  rw [Swift.stated, List.flatMap_assoc]
  refine List.flatMap_congr fun type _ => ?_
  cases Swift.ownerId? tables unit.module type <;> simp

/-- The bases of all types of a family, as tables resolve them. -/
def statedBases (files : List SourceFile) (tables : SymbolTables) :
    Family → List (String × List Resolution)
  | .python =>
      (Frontends.units (moduleNames files) Python.Outline.ofFile .python files).flatMap fun unit =>
      unit.stated unit.outline.supers tables
  | .javaScript =>
      (Frontends.units (moduleNames files) JavaScript.Outline.ofFile .javaScript files).flatMap
        fun unit =>
      unit.stated unit.outline.supers tables
  | .swift =>
      (Frontends.units (moduleNames files) Swift.Outline.ofFile .swift files).flatMap fun unit =>
      Swift.stated unit tables

theorem frontendsOf_extends (files : List SourceFile) (family : Family) :
    (frontendsOf files).Extends family
      (statedBases files (replay (entriesBefore files family)) family) := by
  have suitable := frontendsOf_suitable files
  rw [← tablesAfter_eq_replay]
  cases family with
  | python =>
      exact Frontends.extends_of_scripts suitable rfl (fun _ _ _ => rfl) Python.callScript_isCall
        fun unit tables => unit.baseSteps_stated tables _ _ _
  | javaScript =>
      exact Frontends.extends_of_scripts suitable rfl (fun _ _ _ => rfl)
        JavaScript.callScript_isCall
        fun unit tables => unit.baseSteps_stated tables _ _ _
  | swift =>
      exact Frontends.extends_of_scripts suitable rfl (fun _ _ _ => rfl) Swift.callScript_isCall
        Swift.baseScript_eq

theorem typesOnly_stated_iff {α : Type} {unit : SourceUnit α}
    {classes : List (String × List (List String))} {history : List Registration}
    (known : ∀ cls ∈ classes, ∃ id, (replay history).classIn? unit.module cls.1 = some id) :
    TypesOnly (replay history) (unit.stated classes (replay history)) ↔
      ∀ base ∈ classes.flatMap Prod.snd, ∀ id, ¬Misbound history unit.module base id := by
  rw [SourceUnit.stated, typesOnly_flatMap]
  simp only [List.mem_flatMap]
  constructor
  · rintro types base ⟨cls, listed, member⟩ id misbound
    obtain ⟨classId, found⟩ := known cls listed
    obtain ⟨leads, stray⟩ := resolveBase_strays_iff.mpr misbound
    have stated : (classId, cls.2.map (Python.resolveBase (replay history) unit.module)) ∈
        (((replay history).classIn? unit.module cls.1).map fun id =>
          (id, cls.2.map (Python.resolveBase (replay history) unit.module))).toList := by
      rw [found]
      exact List.mem_singleton_self _
    have type := types cls listed _ stated _ (List.mem_map_of_mem member) id leads
    rw [stray] at type
    cases type
  · intro bound cls listed type there resolution inside id leads
    obtain ⟨classId, found⟩ := known cls listed
    rw [found] at there
    cases List.mem_singleton.mp there
    obtain ⟨base, member, rfl⟩ := List.mem_map.mp inside
    refine (Bool.not_eq_false _).mp fun stray => bound base ⟨cls, listed, member⟩ id ?_
    exact resolveBase_strays_iff.mp ⟨leads, stray⟩

/-- The files of a family have no base that leads astray. -/
def Bound (files : List SourceFile) (family : Family) : Prop :=
  ∀ file ∈ filesOf family files, ∀ base ∈ file.superclasses, ∀ id,
    ¬Misbound (entriesBefore files family) (moduleNames files file) base id

/-- Every class of a front-end that finds its declarations by name is known when its bases are
resolved. -/
theorem PlainFrontEnd.typesOnly_iff {α : Type} (front : PlainFrontEnd α) {outline : SourceFile → α}
    {supers : α → List (String × List (List String))}
    (scripts : frontendsOf files front.family =
      front.scripts (Frontends.units (moduleNames files) outline front.family files))
    (named : ∀ outline, (supers outline).map Prod.fst =
      (front.inventory outline).types.map TypeInventory.name)
    (listed : ∀ file : SourceFile,
      file.family = front.family → file.superclasses = (supers (outline file)).flatMap Prod.snd) :
    TypesOnly (replay (entriesBefore files front.family))
        ((Frontends.units (moduleNames files) outline front.family files).flatMap fun unit =>
          unit.stated (supers unit.outline) (replay (entriesBefore files front.family))) ↔
      Bound files front.family := by
  rw [typesOnly_flatMap, Frontends.units, List.forall_mem_map]
  refine forall₂_congr fun file member => ?_
  have own := (mem_filesOf.mp member).2
  rw [listed file own]
  refine typesOnly_stated_iff fun cls inside => ?_
  have present : cls.1 ∈ (front.inventory (outline file)).types.map TypeInventory.name := by
    rw [← named]
    exact List.mem_map_of_mem inside
  obtain ⟨type, declared, same⟩ := List.mem_map.mp present
  have unit := front.known (frontendsOf_suitable files) scripts .nil (List.mem_map_of_mem member)
  have found := unit.types type declared
  rw [same] at found
  rw [← tablesAfter_eq_replay]
  exact ⟨_, found⟩

theorem typesOnly_swift (files : List SourceFile) {history : List Registration} :
    TypesOnly (replay history) (statedBases files (replay history) .swift) := by
  refine typesOnly_flatMap.mpr fun unit _ => typesOnly_flatMap.mpr fun type _ => ?_
  intro stated there resolution inside id leads
  obtain ⟨owner, -, rfl⟩ := Option.map_eq_some_iff.mp (Option.mem_toList.mp there)
  obtain ⟨base, -, rfl⟩ := List.mem_map.mp inside
  refine (hasType_replay_iff history).mpr
    (Grounded.node (p := EntersType history) (grounded_ofTiers _ ?_) leads)
  intro candidate member
  rcases List.mem_pair.mp member with rfl | rfl
  · exact candidate_tier (by decide) fun found => entersType_of_classIn?
  · exact candidate_tier (by decide) fun found => entersType_of_uniqueGlobalType?

/-- The bases of a family are all types exactly when none of them leads astray. -/
theorem typesOnly_iff_bound (files : List SourceFile) (family : Family) :
    TypesOnly (replay (entriesBefore files family))
      (statedBases files (replay (entriesBefore files family)) family) ↔
      Bound files family := by
  cases family with
  | python =>
      refine Python.frontEnd.typesOnly_iff (Python.scripts_frontEnd _) (fun outline => ?_)
        fun file own => ?_
      · simp [Python.Outline.supers, Python.frontEnd, Python.Outline.inventory, Inventory.listing]
      · rw [SourceFile.superclasses, own, Python.Outline.supers, List.flatMap_map]
        rfl
  | javaScript =>
      refine JavaScript.frontEnd.typesOnly_iff (JavaScript.scripts_frontEnd _) (fun outline => ?_)
        fun file own => ?_
      · simp [JavaScript.Outline.supers, JavaScript.frontEnd, JavaScript.Outline.inventory,
          Inventory.listing]
      · rw [SourceFile.superclasses, own, JavaScript.Outline.supers, List.flatMap_map]
        rfl
  | swift =>
      refine iff_of_true (typesOnly_swift files) fun file inside base listed => ?_
      rw [SourceFile.superclasses, (mem_filesOf.mp inside).2] at listed
      cases listed

end Families

/-- A base leads to a node that is no type exactly where it is misbound, in every state of the
tables. So in every build all edges to bases inside the repository, and all bases recorded, lead to
types if and only if no class of a file has a misbound base. -/
theorem resolveBase_type_iff (history : List Registration) (module : String) (base : List String)
    (id : String) (files : List SourceFile) :
    ((Python.resolveBase (replay history) module base).target = .node id ∧
      (replay history).hasType id = false ↔
      Misbound history module base id) ∧
    ((JavaScript.resolveBase (replay history) module base).target = .node id ∧
      (replay history).hasType id = false ↔
      Misbound history module base id) ∧
    ∃ result, buildGraph files = .ok result ∧
      (Rooted files result ↔ ∀ file ∈ files, ∀ base ∈ file.superclasses, ∀ id,
        ¬Misbound (entriesBefore files file.family) (moduleNames files file) base id) := by
  refine ⟨resolveBase_strays_iff, ?_, ?_⟩
  · rw [JavaScript.resolveBase_eq_python]
    exact resolveBase_strays_iff
  · obtain ⟨result, built, rooted⟩ := rooted_iff_typesOnly (frontendsOf_extends files)
    refine ⟨result, built, rooted.trans ?_⟩
    simp only [typesOnly_iff_bound]
    constructor
    · intro bound file member
      exact bound file.family file (mem_filesOf.mpr ⟨member, rfl⟩)
    · intro bound family file inside
      obtain ⟨member, rfl⟩ := mem_filesOf.mp inside
      exact bound file member

/-- A class with an imported function for a base inherits from that function. -/
theorem resolveBase_function :
    Python.resolveBase (replay [.symbol "helpers" "make" "symbol:helpers.make" false,
        .binding "app" "make" (.symbol "helpers" "make" false)]) "app" ["make"] =
      ⟨.node "symbol:helpers.make", .high⟩ ∧
    (replay [.symbol "helpers" "make" "symbol:helpers.make" false,
      .binding "app" "make" (.symbol "helpers" "make" false)]).hasType "symbol:helpers.make" =
        false := by
  decide +kernel

end SourceAtlas
