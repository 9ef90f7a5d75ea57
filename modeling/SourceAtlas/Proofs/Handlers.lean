/- The functions that routes lead to are nodes of the graph: their ids are worked out twice, once
among all files and once among the Python files alone, and both times with the same result. So no
route is without its main thread. -/
import SourceAtlas.Proofs.Order
import SourceAtlas.Story.Arc

namespace SourceAtlas

theorem Python.connect_mem_definitionSteps {unit : SourceUnit Python.Outline}
    {function : Python.Function} (listed : function ∈ unit.outline.functions) :
    .connect ⟨unit.fileId, unit.symbolId function.declaration.name, .contains, .high⟩ ∈
      definitionSteps unit := by
  refine List.mem_append_right _ (List.mem_flatMap.mpr ⟨function, listed, ?_⟩)
  exact List.mem_append_left _ (List.mem_cons_of_mem _ List.mem_cons_self)

/-- The functions of a Python file are nodes under the namespace that the file has among all
files. -/
theorem function_mem_nodes {files : List SourceFile} {file : SourceFile}
    {function : Python.Function} {result : GraphResult} (built : buildGraph files = .ok result)
    (member : file ∈ filesOf .python files)
    (listed : function ∈ (Python.Outline.ofFile file).functions) :
    Identifier.symbol (Identifier.qualify (moduleNames files file) function.declaration.name) ∈
      result.nodes := by
  let unit : SourceUnit Python.Outline :=
    ⟨file.path, moduleNames files file, Python.Outline.ofFile file⟩
  let edge : GraphEdge := ⟨unit.fileId, unit.symbolId function.declaration.name, .contains, .high⟩
  have asked : .connect edge ∈ (frontendsOf files).steps .python .definitions := by
    have fixed : (frontendsOf files).steps .python .definitions =
        (Frontends.units (moduleNames files) Python.Outline.ofFile .python files).flatMap
          Python.definitionSteps :=
      Script.stepsFrom_fixed _ _ _
    rw [fixed]
    exact List.mem_flatMap.mpr ⟨unit, List.mem_map_of_mem member,
      Python.connect_mem_definitionSteps listed⟩
  have drawn : edge ∈ result.edges := by
    obtain ⟨same, builtSame, edges⟩ := buildGraph_edges files
    cases built.symm.trans builtSame
    rw [edges]
    refine List.mem_flatMap.mpr ⟨.definitions, by decide, ?_⟩
    exact List.mem_append_left _ (List.mem_append_left _ (Step.mem_drawn_of_connect asked []))
  obtain ⟨graph, sound, builtSound⟩ := buildGraph_sound files
  cases built.symm.trans builtSound
  obtain ⟨_, target, found, _⟩ := sound.joined edge (by simpa using drawn)
  exact Std.ExtTreeMap.mem_iff_isSome_getElem?.mpr (Option.isSome_iff_exists.mpr ⟨target, found⟩)

/-- Python files have the same namespaces among themselves, in any order, as among all files. -/
theorem moduleNames_of_perm_filesOf {files scripts : List SourceFile}
    (located : ∀ file ∈ files, file.Located) (same : scripts.Perm (filesOf .python files))
    {file : SourceFile} (member : file ∈ scripts) :
    moduleNames scripts file = moduleNames files file := by
  rw [moduleNames_perm same member, moduleNames_filesOf located (same.mem_iff.mp member)]

theorem Route.exists_of_mem_ofFiles {scripts : List SourceFile} {route : RouteInfo}
    (member : route ∈ Route.ofFiles scripts) :
    ∃ file ∈ scripts, ∃ function ∈ (Python.Outline.ofFile file).functions,
      route.handlerId =
        Identifier.symbol (Identifier.qualify (moduleNames scripts file)
          function.declaration.name) := by
  obtain ⟨file, inside, found⟩ := List.mem_flatMap.mp member
  obtain ⟨function, listed, given⟩ := List.mem_flatMap.mp found
  obtain ⟨_, _, rfl⟩ := List.mem_map.mp given
  exact ⟨file, List.mem_of_mem_filter inside, function, listed, rfl⟩

namespace StoryArc

def isMain (arc : StoryArc) : Bool := arc.thread == .main

/-- A known handler has one main thread; all its other threads are branches. -/
theorem filter_isMain_ofRoute {index : RepoIndex} {route : RouteInfo}
    (known : route.handlerId ∈ index.nodes) (config : StoryConfig) :
    ((ofRoute index config route).filter isMain).map StoryArc.route = [route] := by
  obtain ⟨node, found⟩ := Option.isSome_iff_exists.mp
    (Std.ExtTreeMap.mem_iff_isSome_getElem?.mp known)
  obtain ⟨main, branches, threads⟩ : ∃ main branches,
      Thread.all index config route.handlerId = main :: branches := by
    simp only [Thread.all, Thread.walk, found, List.isEmpty_cons, Bool.false_eq_true, if_false]
    exact ⟨_, _, rfl⟩
  have dropped {make : List Scene × Nat → StoryArc}
      (kind : ∀ thread, (make thread).thread = if thread.2 = 0 then .main else .branch) :
      ((branches.zipIdx 1).map make).filter isMain = [] := by
    refine List.filter_eq_nil_iff.mpr fun arc member => ?_
    obtain ⟨⟨scenes, place⟩, listed, rfl⟩ := List.mem_map.mp member
    have later : place ≠ 0 := by
      have bounds := List.mem_zipIdx listed
      omega
    simp [isMain, kind, later]
  simp only [ofRoute, threads, List.zipIdx_cons, List.map_cons]
  rw [List.filter_cons_of_pos rfl, List.map_cons, dropped fun _ => rfl]
  rfl

theorem filter_isMain_ofFiles {index : RepoIndex} {scripts : List SourceFile}
    (known : ∀ route ∈ Route.ofFiles scripts, route.handlerId ∈ index.nodes)
    (config : StoryConfig) :
    (((ofFiles index scripts config).filter isMain).map StoryArc.route).Perm
      (Route.ofFiles scripts) := by
  have kept : (Route.ofFiles scripts).filter (fun route => (index.nodes[route.handlerId]?).isSome) =
      Route.ofFiles scripts :=
    List.filter_eq_self.mpr fun route member =>
      Std.ExtTreeMap.mem_iff_isSome_getElem?.mp (known route member)
  have unsorted : (((Route.ofFiles scripts).flatMap (ofRoute index config)).filter isMain).map
      StoryArc.route =
      Route.ofFiles scripts := by
    rw [List.filter_flatMap, List.map_flatMap]
    calc
      _ = (Route.ofFiles scripts).flatMap fun route => [route] :=
        List.flatMap_congr fun route member => filter_isMain_ofRoute (known route member) config
      _ = Route.ofFiles scripts := List.flatMap_singleton' _
  rw [ofFiles, kept]
  refine (((List.mergeSort_perm _ _).filter isMain).map StoryArc.route).trans ?_
  rw [unsorted]

end StoryArc

/-- Routes that are found in the Python files alone lead to functions that a build of all files has
as nodes, so that an index of the build has one main thread for each of them. -/
theorem buildGraph_handlers {files scripts : List SourceFile}
    (located : ∀ file ∈ files, file.Located) (same : scripts.Perm (filesOf .python files)) :
    ∃ result, buildGraph files = .ok result ∧
      (∀ route ∈ Route.ofFiles scripts, route.handlerId ∈ result.nodes) ∧
      ∀ index : RepoIndex, index.nodes = result.nodes → ∀ config : StoryConfig,
        (((StoryArc.ofFiles index scripts config).filter StoryArc.isMain).map StoryArc.route).Perm
          (Route.ofFiles scripts) := by
  obtain ⟨result, built, _⟩ := buildGraph_edges files
  have known : ∀ route ∈ Route.ofFiles scripts, route.handlerId ∈ result.nodes := by
    intro route member
    obtain ⟨file, inside, function, listed, handler⟩ := Route.exists_of_mem_ofFiles member
    rw [handler, moduleNames_of_perm_filesOf located same inside]
    exact function_mem_nodes built (same.mem_iff.mp inside) listed
  refine ⟨result, built, known, fun index shared config => StoryArc.filter_isMain_ofFiles ?_ config⟩
  rw [shared]
  exact known

/-- A module with one request handler. -/
def routedModule : SourceFile where
  path := "app.py"
  language := .python
  text := "@app.get('/')\ndef f(): pass"
  tree := some (.plain "module" none 0 27 [.plain "decorated_definition" none 0 27
    [.plain "decorator" none 0 13 [.plain "call" none 1 13
      [.plain "attribute" (some "function") 1 8
        [.plain "identifier" (some "object") 1 4 [], .plain "identifier" (some "attribute") 5 8 []],
       .plain "argument_list" (some "arguments") 8 13 [.plain "string" none 9 12 []]]],
     .plain "function_definition" (some "definition") 14 27
      [.plain "identifier" (some "name") 18 19 [], .plain "block" (some "body") 23 27 []]]])

theorem buildGraph_handlers_routed :
    ∃ result, buildGraph [importingScript "import './a'", baseModule, routedModule] = .ok result ∧
      "symbol:app.f" ∈ result.nodes ∧
      ∀ index : RepoIndex, index.nodes = result.nodes →
        ((StoryArc.ofFiles index [routedModule, baseModule] {}).filter StoryArc.isMain).map
          (fun arc => arc.route.path) = ["/"] := by
  have located : ∀ file ∈ [importingScript "import './a'", baseModule, routedModule],
      file.Located := by
    simp only [List.forall_mem_cons, List.not_mem_nil, false_imp_iff, implies_true, and_true]
    exact ⟨⟨by decide, by decide⟩, ⟨by decide, by decide⟩, ⟨by decide, by decide⟩⟩
  have order : [routedModule, baseModule].Perm (filesOf .python
      [importingScript "import './a'", baseModule, routedModule]) := .swap _ _ []
  obtain ⟨result, built, handlers, arcs⟩ := buildGraph_handlers located order
  have handler : ∃ route ∈ Route.ofFiles [routedModule, baseModule],
      route.handlerId = "symbol:app.f" := by
    decide +kernel
  have paths : (Route.ofFiles [routedModule, baseModule]).map RouteInfo.path = ["/"] := by
    decide +kernel
  obtain ⟨route, found, leads⟩ := handler
  refine ⟨result, built, leads ▸ handlers route found, fun index shared => ?_⟩
  have listed := (arcs index shared {}).map RouteInfo.path
  rw [paths, List.map_map] at listed
  exact List.perm_singleton.mp listed

end SourceAtlas
