/- Every call and every base of every file becomes one edge, from the node under which the
declaration around it is registered: none is lost and none is drawn twice. -/
import Mathlib.Data.List.Perm.Basic
import SourceAtlas.Proofs.Owners
import SourceAtlas.Proofs.Sites

namespace SourceAtlas

open Step

/-- The places of a family's references: the last pass draws one edge for each, and the definitions
pass registers them all. -/
structure Frontends.Surveyed (frontends : Frontends) (family : Family) (survey : Survey) :
    Prop where
  calls : (((edges (frontends.steps family .relations)).filter fun edge => edge.kind.isCall).map
    GraphEdge.source).Perm (survey.calls.flatMap Site.sources)
  bases : (((edges (frontends.steps family .relations)).filter fun edge => edge.kind.isBase).map
    GraphEdge.source).Perm (survey.bases.flatMap Site.sources)
  registered : ∀ site ∈ survey.calls ++ survey.bases,
    site.Registered (entries (frontends.steps family .definitions))

/-- The two halves of the last pass draw edges of different kinds. -/
theorem filter_relations {bases calls : List Step} {baseSources callSources : List String}
    (drawsBases : Draws EdgeKind.isBase bases baseSources)
    (drawsCalls : Draws EdgeKind.isCall calls callSources) :
    ((edges (bases ++ calls)).filter fun edge => edge.kind.isCall).map GraphEdge.source =
      callSources ∧
      ((edges (bases ++ calls)).filter fun edge => edge.kind.isBase).map GraphEdge.source =
        baseSources := by
  have apart (kind : EdgeKind) : kind.isCall = true → kind.isBase = true → False := by
    cases kind <;> simp [EdgeKind.isCall, EdgeKind.isBase]
  have noCalls : (edges bases).filter (fun edge => edge.kind.isCall) = [] :=
    List.filter_eq_nil_iff.mpr fun edge member call => apart _ call (drawsBases.kinds edge member)
  have noBases : (edges calls).filter (fun edge => edge.kind.isBase) = [] :=
    List.filter_eq_nil_iff.mpr fun edge member base => apart _ (drawsCalls.kinds edge member) base
  rw [edges_append, List.filter_append, List.filter_append, noCalls, noBases, List.nil_append,
    List.append_nil, List.filter_eq_self.mpr drawsBases.kinds,
    List.filter_eq_self.mpr drawsCalls.kinds]
  exact ⟨drawsCalls.sources, drawsBases.sources⟩

/-- The places of files whose declarations are all found by name. -/
def Survey.ofUnits {α : Type} (units : List (SourceUnit α)) (inventory : α → Inventory) :
    Survey where
  calls := units.flatMap fun unit => (unit.survey (inventory unit.outline)).calls
  bases := units.flatMap fun unit => (unit.survey (inventory unit.outline)).bases

theorem PlainFrontEnd.surveyed {α : Type} {frontends : Frontends} (front : PlainFrontEnd α)
    {units : List (SourceUnit α)} (suitable : frontends.Suitable)
    (scripts : frontends front.family = front.scripts units) :
    frontends.Surveyed front.family (Survey.ofUnits units front.inventory) := by
  let tables := frontends.tablesAfter front.family Pass.relations.earlier
  obtain ⟨suits, taken⟩ := front.steps_relations suitable scripts
  have drawsBases : Draws EdgeKind.isBase (units.flatMap fun unit => front.bases unit tables) _ :=
    .flatMap fun unit member => front.basesDraw (front.known suitable scripts .nil member)
  obtain ⟨calls, inherited⟩ := filter_relations drawsBases
    (.flatMap fun unit member => front.callsDraw (front.known suitable scripts suits member))
  refine ⟨?_, ?_, ?_⟩
  · rw [taken, calls, Survey.ofUnits, List.flatMap_assoc]
  · rw [taken, inherited, Survey.ofUnits, List.flatMap_assoc]
  · intro site member
    simp only [Survey.ofUnits, List.mem_append, List.mem_flatMap] at member
    rcases member with ⟨unit, listed, inside⟩ | ⟨unit, listed, inside⟩
    · exact (front.declared scripts listed).registered site (List.mem_append_left _ inside)
    · exact (front.declared scripts listed).registered site (List.mem_append_right _ inside)

namespace Swift

def Placed.site (placed : Placed) : Site := placed.type.inventory.site placed.ownerId

def Placed.methodSites (placed : Placed) : List Site :=
  placed.type.inventory.methods.map
    (placed.unit.methodSite placed.ownerId placed.type.declaration.name)

/-- The declarations of all files on the types that they belong to, given the tables before any
definition. -/
def placements (tables : SymbolTables) (units : List (SourceUnit Outline)) : List Placed :=
  place (tables.after (units.flatMap primarySteps)) (typesOf units)

/-- The places of files whose types may be extended in others. -/
def survey (tables : SymbolTables) (units : List (SourceUnit Outline)) : Survey where
  calls := (units.flatMap fun unit => unit.outline.inventory.functions.map unit.functionSite) ++
    (placements tables units).flatMap Placed.methodSites
  bases := (placements tables units).map Placed.site

section Draws

variable {unit : SourceUnit Outline} {tables : SymbolTables} {own : TypeDeclaration → String}

theorem baseScript_draws
    (known : ∀ type ∈ unit.outline.types, ownerId? tables unit.module type = some (own type)) :
    Draws EdgeKind.isBase (baseScript unit tables)
      (unit.outline.types.flatMap fun type => (type.inventory.site (own type)).sources) := by
  refine .flatMap fun type listed => .known (known type listed) ?_
  exact .bases _ type.bases _

theorem callScript_draws
    (functions : ∀ function ∈ unit.outline.functions,
      tables.local? unit.module function.declaration.name =
        some (unit.symbolId function.declaration.name))
    (known : ∀ type ∈ unit.outline.types, ownerId? tables unit.module type = some (own type)) :
    Draws EdgeKind.isCall (callScript unit tables)
      ((unit.outline.inventory.functions.map unit.functionSite).flatMap Site.sources ++
        unit.outline.types.flatMap fun type =>
          (type.inventory.methods.map (unit.methodSite (own type) type.declaration.name)).flatMap
            Site.sources) := by
  simp only [Outline.inventory, TypeDeclaration.inventory, List.map_map, List.flatMap_map]
  refine .append (.flatMap fun function listed => .known (functions function listed) ?_)
    (.flatMap fun type listed => .known (known type listed) ?_)
  · exact .each fun callee _ => .link rfl _ _
  · exact .flatMap fun method _ => .each fun callee _ => .link rfl _ _

end Draws

section Placement

variable {frontends : Frontends} {units : List (SourceUnit Outline)}

theorem scripts_definitions (units : List (SourceUnit Outline)) :
    scripts units .definitions =
      (units.map fun unit => Script.fixed (primarySteps unit)) ++
        memberScripts (typesOf units) := by
  simp only [scripts, memberScripts, typesOf, List.map_flatMap, List.map_map]
  rfl

/-- The definitions pass: first everything that is no extension, then all members. -/
theorem steps_definitions (scripted : frontends .swift = scripts units) :
    let start := frontends.tablesAfter .swift Pass.definitions.earlier
    frontends.steps .swift .definitions = units.flatMap primarySteps ++
      Script.stepsFrom (start.after (units.flatMap primarySteps))
        (memberScripts (typesOf units)) := by
  intro start
  rw [Frontends.steps, scripted, scripts_definitions, Script.stepsFrom_append,
    Script.stepsFrom_fixed]

variable {placed : Placed}

theorem mem_placements {tables : SymbolTables} (member : placed ∈ placements tables units) :
    placed.unit ∈ units ∧ placed.type ∈ placed.unit.outline.types := by
  have listed : (placed.unit, placed.type) ∈ typesOf units := by
    rw [← map_place (tables.after (units.flatMap primarySteps)) (typesOf units)]
    exact List.mem_map.mpr ⟨placed, member, rfl⟩
  obtain ⟨unit, there, inside⟩ := List.mem_flatMap.mp listed
  obtain ⟨type, declared, same⟩ := List.mem_map.mp inside
  cases same
  exact ⟨there, declared⟩

theorem mem_definitions (scripted : frontends .swift = scripts units) {unit : SourceUnit Outline}
    (member : unit ∈ units) {entry : Registration} (inside : entry ∈ entries (primarySteps unit)) :
    entry ∈ entries (frontends.steps .swift .definitions) := by
  rw [steps_definitions scripted, entries_append, entries_flatMap]
  exact List.mem_append_left _ (List.mem_flatMap.mpr ⟨unit, member, inside⟩)

theorem mem_primarySteps {unit : SourceUnit Outline} {type : TypeDeclaration}
    (listed : type ∈ unit.outline.types) (plain : type.isExtension = false) :
    .symbol unit.module type.declaration.name (unit.symbolId type.declaration.name) true ∈
      entries (primarySteps unit) := by
  rw [primarySteps, entries_append, entries_flatMap (unit.outline.types.filter _)]
  refine List.mem_append_right _ (List.mem_flatMap.mpr ⟨type, ?_, List.mem_singleton.mpr rfl⟩)
  exact List.mem_filter.mpr ⟨listed, by simp [plain]⟩

/-- After the definitions pass, the name of an extension means the type that it is placed on. -/
theorem knownType?_definitions (scripted : frontends .swift = scripts units)
    (member : placed ∈ placements (frontends.tablesAfter .swift Pass.definitions.earlier) units)
    (extension : placed.type.isExtension = true) :
    knownType? (frontends.tablesAfter .swift Pass.imports.earlier) placed.unit.module
      placed.type.declaration.name = some placed.ownerId := by
  have after : frontends.tablesAfter .swift Pass.imports.earlier =
      (frontends.tablesAfter .swift Pass.definitions.earlier).after
        (frontends.steps .swift .definitions) := rfl
  rw [after, steps_definitions scripted, SymbolTables.after_append]
  exact knownType?_placed member extension

theorem registered_placed (suitable : frontends.Suitable)
    (scripted : frontends .swift = scripts units)
    (member : placed ∈ placements (frontends.tablesAfter .swift Pass.definitions.earlier) units) :
    ∃ home, .symbol home placed.type.declaration.name placed.ownerId true ∈
      entries (frontends.steps .swift .definitions) := by
  obtain ⟨inUnits, inTypes⟩ := mem_placements member
  cases extension : placed.type.isExtension with
  | false =>
      rw [ownerId_of_not_extension member extension]
      exact ⟨placed.unit.module,
        mem_definitions scripted inUnits (mem_primarySteps inTypes extension)⟩
  | true =>
      have known := knownType?_definitions scripted member extension
      rw [Frontends.tablesAfter_earlier] at known
      obtain ⟨home, entered⟩ := knownType?_origin known
      refine ⟨home, ?_⟩
      rw [entries_flatMap] at entered
      obtain ⟨pass, earlier, inside⟩ := List.mem_flatMap.mp entered
      have suits := (Frontends.steps_suit suitable .swift pass).entry inside
      cases pass with
      | definitions => exact inside
      | _ => cases suits

/-- The last pass finds every declaration on the type that it is placed on. -/
theorem ownerId?_placed (suitable : frontends.Suitable)
    (scripted : frontends .swift = scripts units) {bases : List Step}
    (suits : AllSuit .swift .relations bases)
    (member : placed ∈ placements (frontends.tablesAfter .swift Pass.definitions.earlier) units) :
    ownerId? ((frontends.tablesAfter .swift Pass.relations.earlier).after bases) placed.unit.module
      placed.type =
      some placed.ownerId := by
  obtain ⟨inUnits, inTypes⟩ := mem_placements member
  cases extension : placed.type.isExtension with
  | false =>
      obtain ⟨history, regular, grows, same⟩ := Frontends.relations_tables suitable suits
      rw [ownerId?, extension, if_neg (by simp), ownerId_of_not_extension member extension, same]
      exact classIn?_after regular
        (grows (mem_definitions scripted inUnits (mem_primarySteps inTypes extension)))
  | true =>
      have imports := Frontends.steps_suit suitable .swift .imports
      have after : frontends.tablesAfter .swift Pass.relations.earlier =
          (frontends.tablesAfter .swift Pass.imports.earlier).after
            (frontends.steps .swift .imports) := rfl
      rw [ownerId?, extension, if_pos rfl, ← knownType?_definitions scripted member extension,
        after, ← SymbolTables.after_append]
      refine knownType?_foldl fun entry inside => ?_
      rw [entries_append] at inside
      rcases List.mem_append.mp inside with imported | based
      · have held := imports.entry imported
        cases entry <;> first | rfl | cases held
      · have held := suits.entry based
        cases entry <;> first | rfl | cases held

end Placement

theorem flatMap_placements {β : Type} (tables : SymbolTables) (units : List (SourceUnit Outline))
    (part : SourceUnit Outline → TypeDeclaration → List β) :
    ((placements tables units).flatMap fun placed => part placed.unit placed.type) =
      units.flatMap fun unit => unit.outline.types.flatMap fun type => part unit type := by
  calc ((placements tables units).flatMap fun placed => part placed.unit placed.type)
      = ((placements tables units).map fun placed => (placed.unit, placed.type)).flatMap fun slot =>
          part slot.1 slot.2 := by rw [List.flatMap_map]
    _ = (typesOf units).flatMap fun slot => part slot.1 slot.2 := by rw [placements, map_place]
    _ = units.flatMap fun unit => unit.outline.types.flatMap fun type => part unit type := by
        rw [typesOf, List.flatMap_assoc]
        simp only [List.flatMap_map]

theorem flatMap_placements_owner {β : Type} {tables : SymbolTables}
    {units : List (SourceUnit Outline)} {own : SourceUnit Outline → TypeDeclaration → String}
    (agree : ∀ placed ∈ placements tables units, placed.ownerId = own placed.unit placed.type)
    (part : SourceUnit Outline → TypeDeclaration → String → List β) :
    ((placements tables units).flatMap fun placed => part placed.unit placed.type placed.ownerId) =
      units.flatMap fun unit => unit.outline.types.flatMap fun type =>
        part unit type (own unit type) := by
  rw [← flatMap_placements tables]
  exact List.flatMap_congr fun placed member => by rw [agree placed member]

section Survey

variable {frontends : Frontends} {units : List (SourceUnit Outline)}

/-- The type of a declaration follows from the declaration, during the whole last pass. -/
theorem exists_owner (suitable : frontends.Suitable) (scripted : frontends .swift = scripts units) :
    ∃ own : SourceUnit Outline → TypeDeclaration → String,
      (∀ placed ∈ placements (frontends.tablesAfter .swift Pass.definitions.earlier) units,
        placed.ownerId = own placed.unit placed.type) ∧
      ∀ steps, AllSuit .swift .relations steps → ∀ unit ∈ units, ∀ type ∈ unit.outline.types,
        ownerId? ((frontends.tablesAfter .swift Pass.relations.earlier).after steps)
        unit.module type =
          some (own unit type) := by
  let tables := frontends.tablesAfter .swift Pass.relations.earlier
  have agree : ∀ placed ∈ placements (frontends.tablesAfter .swift Pass.definitions.earlier) units,
      placed.ownerId = (ownerId? tables placed.unit.module placed.type).getD "" := by
    intro placed member
    have found : ownerId? tables placed.unit.module placed.type = some placed.ownerId :=
      ownerId?_placed suitable scripted .nil member
    rw [found, Option.getD_some]
  -- Equal declarations of equal files may be placed twice, but never on two types.
  refine ⟨fun unit type => (ownerId? tables unit.module type).getD "", agree, ?_⟩
  intro steps fits unit inUnits type inTypes
  have slot : (unit, type) ∈ typesOf units :=
    List.mem_flatMap.mpr ⟨unit, inUnits, List.mem_map.mpr ⟨type, inTypes, rfl⟩⟩
  rw [← map_place ((frontends.tablesAfter .swift Pass.definitions.earlier).after
    (units.flatMap primarySteps))
    (typesOf units)] at slot
  obtain ⟨placed, member, same⟩ := List.mem_map.mp slot
  cases same
  exact (ownerId?_placed suitable scripted fits member).trans (congrArg some (agree placed member))

theorem mem_primarySteps_function {unit : SourceUnit Outline} {function : Function}
    (listed : function ∈ unit.outline.functions) :
    .symbol unit.module function.declaration.name (unit.symbolId function.declaration.name) false ∈
      entries (primarySteps unit) := by
  rw [primarySteps, entries_append,
    unit.entries_functions unit.outline.functions Function.declaration]
  exact List.mem_append_left _ (List.mem_map.mpr ⟨function, listed, rfl⟩)

theorem survey_registered (suitable : frontends.Suitable)
    (scripted : frontends .swift = scripts units) {site : Site}
    (member : site ∈ (survey (frontends.tablesAfter .swift Pass.definitions.earlier) units).calls ++
      (survey (frontends.tablesAfter .swift Pass.definitions.earlier) units).bases) :
    site.Registered (entries (frontends.steps .swift .definitions)) := by
  simp only [survey, List.mem_append, List.mem_flatMap, List.mem_map] at member
  rcases member with (⟨unit, inUnits, function, listed, rfl⟩ | ⟨placed, there, listed⟩) |
    ⟨placed, there, rfl⟩
  · obtain ⟨function, declared, rfl⟩ := List.mem_map.mp listed
    exact ⟨unit.module, false, mem_definitions scripted inUnits
      (mem_primarySteps_function declared)⟩
  · obtain ⟨_, inside, rfl⟩ := List.mem_map.mp listed
    obtain ⟨method, declared, rfl⟩ := List.mem_map.mp inside
    have entered := memberEntries_subset there (List.mem_map.mpr ⟨method, declared, rfl⟩)
    rw [steps_definitions scripted, entries_append]
    exact List.mem_append_right _ entered
  · obtain ⟨home, entered⟩ := registered_placed suitable scripted there
    exact ⟨home, true, entered⟩

theorem surveyed (suitable : frontends.Suitable) (scripted : frontends .swift = scripts units) :
    frontends.Surveyed .swift (survey (frontends.tablesAfter .swift Pass.definitions.earlier)
      units) := by
  let tables := frontends.tablesAfter .swift Pass.relations.earlier
  let bases := units.flatMap fun unit => baseScript unit tables
  obtain ⟨own, agree, known⟩ := exists_owner suitable scripted
  obtain ⟨suits, taken⟩ := Frontends.steps_relations suitable (congrFun scripted .relations)
    (fun _ _ _ => rfl)
    callScript_isCall
  have functions : ∀ unit ∈ units, ∀ function ∈ unit.outline.functions,
      (tables.after bases).local? unit.module function.declaration.name =
        some (unit.symbolId function.declaration.name) := by
    intro unit member function listed
    obtain ⟨history, regular, grows, same⟩ := Frontends.relations_tables suitable suits
    rw [same]
    exact local?_after regular (grows
      (mem_definitions scripted member (mem_primarySteps_function listed)))
  have drawsBases : Draws EdgeKind.isBase bases _ :=
    .flatMap fun unit member => baseScript_draws (known [] .nil unit member)
  have drawsCalls : Draws EdgeKind.isCall
      (units.flatMap fun unit => callScript unit (tables.after bases)) _ :=
    .flatMap fun unit member => callScript_draws (functions unit member)
      (known bases suits unit member)
  obtain ⟨calls, inherited⟩ := filter_relations drawsBases drawsCalls
  refine ⟨?_, ?_, fun site member => survey_registered suitable scripted member⟩
  · have members := flatMap_placements_owner agree fun unit type ownerId =>
      (type.inventory.methods.map (unit.methodSite ownerId type.declaration.name)).flatMap
        Site.sources
    rw [taken, calls, survey, List.flatMap_append, List.flatMap_assoc, List.flatMap_assoc]
    refine (List.flatMap_append_perm units _ _).symm.trans (.of_eq ?_)
    rw [← members]
    rfl
  · rw [taken, inherited, survey, List.flatMap_map]
    exact .of_eq (flatMap_placements_owner agree fun _ type ownerId =>
      (type.inventory.site ownerId).sources).symm

theorem sum_survey (tables : SymbolTables) (units : List (SourceUnit Outline)) :
    ((survey tables units).calls.map Site.records).sum =
        (units.map fun unit => unit.outline.inventory.calls).sum ∧
      ((survey tables units).bases.map Site.records).sum =
        (units.map fun unit => unit.outline.inventory.bases).sum := by
  constructor
  · have methods : ((placements tables units).flatMap Placed.methodSites).map Site.records =
        units.flatMap fun unit => unit.outline.types.flatMap fun type =>
          type.inventory.methods.map Prod.snd := by
      rw [List.map_flatMap, ← flatMap_placements tables]
      simp only [Placed.methodSites, List.map_map]
      rfl
    simp only [survey, List.map_append, List.sum_append, methods]
    simp only [List.flatMap_def, List.map_flatten, List.map_map, List.sum_flatten,
      Function.comp_def, Inventory.calls, List.sum_map_add, Outline.inventory]
    rfl
  · have bases : (placements tables units).map (fun placed => placed.site.records) =
        units.flatMap fun unit => unit.outline.types.flatMap fun type =>
          [type.inventory.bases] := by
      rw [← flatMap_placements tables, List.map_eq_flatMap]
      rfl
    simp only [survey, List.map_map, Function.comp_def, bases, List.flatMap_def, List.sum_flatten,
      Inventory.bases, Outline.inventory]
    rfl

end Survey

end Swift

/-- The places of all references in the files of a family. -/
def survey (files : List SourceFile) : Family → Survey
  | .python => .ofUnits (Frontends.units (moduleNames files) Python.Outline.ofFile .python files)
      Python.Outline.inventory
  | .javaScript =>
      .ofUnits (Frontends.units (moduleNames files) JavaScript.Outline.ofFile .javaScript files)
      JavaScript.Outline.inventory
  | .swift => Swift.survey ((workspaceBefore files .definitions .swift).tables.get .swift)
      (Frontends.units (moduleNames files) Swift.Outline.ofFile .swift files)

theorem frontendsOf_surveyed (files : List SourceFile) (family : Family) :
    (frontendsOf files).Surveyed family (survey files family) := by
  have suitable := frontendsOf_suitable files
  cases family with
  | python => exact Python.frontEnd.surveyed suitable (Python.scripts_frontEnd _)
  | javaScript => exact JavaScript.frontEnd.surveyed suitable (JavaScript.scripts_frontEnd _)
  | swift =>
      rw [survey, workspaceBefore_tables]
      exact Swift.surveyed suitable rfl

section Counts

theorem sum_ofUnits {α : Type} (units : List (SourceUnit α)) (inventory : α → Inventory) :
    ((Survey.ofUnits units inventory).calls.map Site.records).sum =
        (units.map fun unit => (inventory unit.outline).calls).sum ∧
      ((Survey.ofUnits units inventory).bases.map Site.records).sum =
        (units.map fun unit => (inventory unit.outline).bases).sum := by
  simp only [Survey.ofUnits, List.flatMap_def, List.map_flatten, List.sum_flatten, List.map_map,
    Function.comp_def, SourceUnit.sum_survey, and_self]

theorem sum_units {α : Type} {outline : SourceFile → α} {inventory : α → Inventory}
    {family : Family} {files : List SourceFile}
    (same : ∀ {file : SourceFile}, file.family = family → inventory (outline file) = file.inventory)
    (count : Inventory → Nat) :
    ((Frontends.units (moduleNames files) outline family files).map fun unit =>
      count (inventory unit.outline)).sum =
      ((filesOf family files).map fun file => count file.inventory).sum := by
  rw [Frontends.units, List.map_map]
  refine congrArg List.sum (List.map_congr_left fun file member => ?_)
  exact congrArg count (same (beq_iff_eq.mp (List.mem_filter.mp member).2))

/-- The references of a family are those of its files. -/
theorem sum_survey (files : List SourceFile) (family : Family) :
    ((survey files family).calls.map Site.records).sum =
        ((filesOf family files).map fun file => file.inventory.calls).sum ∧
      ((survey files family).bases.map Site.records).sum =
        ((filesOf family files).map fun file => file.inventory.bases).sum := by
  cases family with
  | python =>
      rw [← sum_units SourceFile.inventory_python Inventory.calls,
        ← sum_units SourceFile.inventory_python Inventory.bases]
      exact sum_ofUnits _ _
  | javaScript =>
      rw [← sum_units SourceFile.inventory_javaScript Inventory.calls,
        ← sum_units SourceFile.inventory_javaScript Inventory.bases]
      exact sum_ofUnits _ _
  | swift =>
      rw [← sum_units SourceFile.inventory_swift Inventory.calls,
        ← sum_units SourceFile.inventory_swift Inventory.bases]
      exact Swift.sum_survey _ _

/-- Every file belongs to one family. -/
theorem sum_families (files : List SourceFile) (count : SourceFile → Nat) :
    (files.map count).sum = (Family.all.map fun family =>
      ((filesOf family files).map count).sum).sum := by
  induction files with
  | nil => rfl
  | cons file rest ih =>
      rw [List.map_cons, List.sum_cons, ih]
      cases family : file.family <;> simp [filesOf, family, Family.all] <;> omega

end Counts

section Assembly

variable {files : List SourceFile} {kinds : EdgeKind → Bool}

/-- Edges of kinds that one pass alone draws, and none of them for an adopted node. -/
theorem filter_edges {only : Pass}
    (last : ∀ (pass : Pass) (kind : EdgeKind),
      kinds kind = true → pass ≠ only → pass.links kind = false)
    (linked : kinds .contains = false) :
    (Pass.all.flatMap fun pass => (frontendsOf files).links .python pass ++
        (frontendsOf files).links .javaScript pass ++ (frontendsOf files).links .swift pass).filter
      (fun edge => kinds edge.kind) =
    Family.all.flatMap fun family =>
      (edges ((frontendsOf files).steps family only)).filter fun edge => kinds edge.kind := by
  have other (family : Family) {pass : Pass} (different : pass ≠ only) :
      ((frontendsOf files).links family pass).filter (fun edge => kinds edge.kind) = [] :=
    Frontends.filter_links_eq_nil (frontendsOf_suitable files) fun edge wanted =>
      last pass edge.kind wanted different
  have own (family : Family) : ((frontendsOf files).links family only).filter
      (fun edge => kinds edge.kind) =
      (edges ((frontendsOf files).steps family only)).filter fun edge => kinds edge.kind := by
    refine Frontends.filter_links fun edge wanted contained => ?_
    rw [contained, linked] at wanted
    cases wanted
  have part (pass : Pass) : ((frontendsOf files).links .python pass ++
      (frontendsOf files).links .javaScript pass ++
      (frontendsOf files).links .swift pass).filter (fun edge => kinds edge.kind) =
      if pass = only then Family.all.flatMap fun family =>
        (edges ((frontendsOf files).steps family only)).filter fun edge => kinds edge.kind
      else [] := by
    rw [List.filter_append, List.filter_append]
    split
    · next same =>
        rw [same, own, own, own]
        simp [Family.all]
    · next different =>
        rw [other _ different, other _ different, other _ different, List.append_nil,
          List.append_nil]
  rw [List.filter_flatMap]
  simp only [part]
  cases only <;> simp [Pass.all]

/-- Where every family draws one edge for each reference at its sites, so does the build. -/
theorem references_of_sites {built : List GraphEdge} {sites : Family → List Site}
    {count : SourceFile → Nat}
    (drawn : (built.filter fun edge => kinds edge.kind) = Family.all.flatMap fun family =>
      (edges ((frontendsOf files).steps family .relations)).filter fun edge => kinds edge.kind)
    (sources : ∀ family, (((edges ((frontendsOf files).steps family .relations)).filter fun edge =>
      kinds edge.kind).map GraphEdge.source).Perm ((sites family).flatMap Site.sources))
    (summed : ∀ family, ((sites family).map Site.records).sum =
      ((filesOf family files).map count).sum) :
    (built.countP fun edge => kinds edge.kind) = (files.map count).sum ∧
      ((built.filter fun edge => kinds edge.kind).map GraphEdge.source).Perm
        (Family.all.flatMap fun family => (sites family).flatMap Site.sources) := by
  have same : ((built.filter fun edge => kinds edge.kind).map GraphEdge.source).Perm
      (Family.all.flatMap fun family => (sites family).flatMap Site.sources) := by
    rw [drawn, List.map_flatMap]
    exact .flatMap_left _ fun family _ => sources family
  refine ⟨?_, same⟩
  calc (built.countP fun edge => kinds edge.kind)
      = ((built.filter fun edge => kinds edge.kind).map GraphEdge.source).length := by
        rw [List.length_map, List.countP_eq_length_filter]
    _ = (Family.all.flatMap fun family => (sites family).flatMap Site.sources).length :=
      same.length_eq
    _ = (Family.all.map fun family => ((sites family).map Site.records).sum).sum := by
        rw [← List.flatMap_assoc, Site.length_sources, List.map_flatMap, List.flatMap_def,
          List.sum_flatten, List.map_map]
        rfl
    _ = (files.map count).sum := by simp only [summed, sum_families files count]

end Assembly

/-- The entries that a family makes in the definitions pass, in their order. -/
def definitionsOf (files : List SourceFile) (family : Family) : List Registration :=
  entries ((frontendsOf files).steps family .definitions)

/-- There is one edge for every call and one for every base in the files, from the id under which
the definitions pass registered the declaration that the call or base stands in. -/
theorem buildGraph_references (files : List SourceFile) :
    ∃ result, buildGraph files = .ok result ∧
      (result.edges.countP fun edge => edge.kind.isCall) =
        (files.map fun file => file.inventory.calls).sum ∧
      (result.edges.countP fun edge => edge.kind.isBase) =
        (files.map fun file => file.inventory.bases).sum ∧
      ((result.edges.filter fun edge => edge.kind.isCall).map GraphEdge.source).Perm
        (Family.all.flatMap fun family => (survey files family).calls.flatMap Site.sources) ∧
      ((result.edges.filter fun edge => edge.kind.isBase).map GraphEdge.source).Perm
        (Family.all.flatMap fun family => (survey files family).bases.flatMap Site.sources) ∧
      ∀ family,
        (definitionsOf files family).foldl SymbolTables.record
          ((workspaceBefore files .definitions family).tables.get family) =
            (workspaceBefore files .imports family).tables.get family ∧
        ∀ site ∈ (survey files family).calls ++ (survey files family).bases,
          site.Registered (definitionsOf files family) := by
  obtain ⟨result, built, drawn⟩ := buildGraph_edges files
  obtain ⟨callCount, callSources⟩ := references_of_sites
    ((congrArg (List.filter _) drawn).trans
      (filter_edges (by intro pass kind; cases pass <;> cases kind <;> decide) rfl))
    (fun family => (frontendsOf_surveyed files family).calls) fun family =>
      (sum_survey files family).1
  obtain ⟨baseCount, baseSources⟩ := references_of_sites
    ((congrArg (List.filter _) drawn).trans
      (filter_edges (by intro pass kind; cases pass <;> cases kind <;> decide) rfl))
    (fun family => (frontendsOf_surveyed files family).bases) fun family =>
      (sum_survey files family).2
  refine ⟨result, built, callCount, baseCount, callSources, baseSources, fun family => ⟨?_, ?_⟩⟩
  · rw [workspaceBefore_tables, workspaceBefore_tables]
    rfl
  · exact (frontendsOf_surveyed files family).registered

end SourceAtlas
