/- Which arcs their ids tell apart. The id of an arc is made from the handler, the path and the
methods of its route, so routes that share all three share the ids of their arcs, wherever they
stand in the files, and so do routes whose parts only read alike once they are joined. -/
import Mathlib.Data.List.Nodup
import SourceAtlas.Proofs.Handlers
import SourceAtlas.Proofs.Payload
import SourceAtlas.Proofs.Segments

namespace SourceAtlas

namespace Route

/-- A route whose handler and methods have none of the marks that stand between them in a
payload. -/
def Legible (route : RouteInfo) : Prop :=
  '|' ∉ route.handlerId.toList ∧ ∀ method ∈ route.methods, '|' ∉ method.toList ∧ ',' ∉ method.toList

theorem empty_not_mem_methods {files : List SourceFile} {route : RouteInfo}
    (member : route ∈ ofFiles files) :
    "" ∉ route.methods := by
  obtain ⟨file, -, found⟩ := List.mem_flatMap.mp member
  obtain ⟨function, -, given⟩ := List.mem_flatMap.mp found
  obtain ⟨pair, decorated, rfl⟩ := List.mem_map.mp given
  obtain ⟨decorator, -, read⟩ := List.mem_filterMap.mp decorated
  rw [ofDecorator?] at read
  split at read
  · split at read
    · cases read
      simp [methodsOf, List.mem_eraseDups]
    · cases read
  · cases read

end Route

namespace StoryArc

section Ids

variable {route other : RouteInfo}

theorem split_payload (legible : Route.Legible route) : Text.split '|' (payload route) =
    route.handlerId :: (Text.split '|' route.path ++ [Text.join "," route.methods]) := by
  have ending : '|' ∉ (Text.join "," route.methods).toList :=
    Text.not_mem_join (by decide) fun method member => (legible.2 method member).1
  have last : (payload route).toList =
      (route.handlerId ++ "|" ++ route.path).toList ++ '|' ::
        (Text.join "," route.methods).toList := by
    simp [payload]
  have first : (route.handlerId ++ "|" ++ route.path).toList =
      route.handlerId.toList ++ '|' :: route.path.toList := by
    simp
  rw [Text.split_of_cut last, Text.split_of_cut first, Text.split_of_not_mem legible.1,
    Text.split_of_not_mem ending]
  rfl

/-- Legible routes have the same payload when they agree in handler, path and methods, and only
then. -/
theorem payload_eq_iff (legible : Route.Legible route) (legible' : Route.Legible other)
    (named : "" ∉ route.methods) (named' : "" ∉ other.methods) : payload route = payload other ↔
      route.handlerId = other.handlerId ∧ route.path = other.path ∧
        route.methods = other.methods := by
  constructor
  · intro same
    have parts := congrArg (Text.split '|') same
    rw [split_payload legible, split_payload legible', List.cons.injEq] at parts
    obtain ⟨handlers, rest⟩ := parts
    obtain ⟨paths, methods⟩ := List.append_inj' rest rfl
    refine ⟨handlers, ?_, ?_⟩
    · rw [← Text.join_split Text.toList_bar route.path, paths, Text.join_split Text.toList_bar]
    · refine (Text.join_inj Text.toList_comma ?_ ?_ named named').mp (List.singleton_inj.mp methods)
      · exact fun method member => (legible.2 method member).2
      · exact fun method member => (legible'.2 method member).2
  · rintro ⟨handlers, paths, methods⟩
    rw [payload, payload, handlers, paths, methods]

theorem mainId_cut (route : RouteInfo) :
    ∃ digits, (mainId route).toList = "arc".toList ++ ':' :: digits ∧ ':' ∉ digits := by
  refine ⟨(Digest.ofText (payload route)).toList.take 12, ?_, fun member => ?_⟩
  · simp [mainId]
  · exact (Signature.unmarked_hex _).2.1 (List.mem_of_mem_take member)

theorem branch_cut (route : RouteInfo) (place : Nat) :
    (mainId route ++ ":branch-" ++ toString place).toList =
        (mainId route).toList ++ ':' :: ("branch-".toList ++ (toString place).toList) ∧
      ':' ∉ "branch-".toList ++ (toString place).toList := by
  have digits := (Signature.unmarked_toString place).2.1
  refine ⟨by simp, ?_⟩
  rw [List.mem_append, not_or]
  exact ⟨by decide, digits⟩

theorem mainId_ne_branch (route other : RouteInfo) (place : Nat) :
    mainId route ≠ mainId other ++ ":branch-" ++ toString place := by
  intro same
  -- Before its last colon a main id has three letters, and the id of a branch a whole main id.
  obtain ⟨digits, start, plain⟩ := mainId_cut route
  obtain ⟨_, longer, _⟩ := mainId_cut other
  obtain ⟨cut, clear⟩ := branch_cut other place
  have texts := congrArg String.toList same
  rw [start, cut] at texts
  have short := (Text.eq_of_cut_last plain clear texts).1
  rw [longer] at short
  simp at short

/-- The id of an arc tells the digest of its route and its place. -/
theorem idAt_eq_iff {place spot : Nat} :
    idAt route place = idAt other spot ↔ mainId route = mainId other ∧ place = spot := by
  refine ⟨fun same => ?_, ?_⟩
  · rw [idAt, idAt] at same
    split at same
    · next first =>
        split at same
        · next second => exact ⟨same, first.trans second.symm⟩
        · exact absurd same (mainId_ne_branch _ _ _)
    · split at same
      · exact absurd same.symm (mainId_ne_branch _ _ _)
      · obtain ⟨cut, clear⟩ := branch_cut route place
        obtain ⟨cut', clear'⟩ := branch_cut other spot
        have texts := congrArg String.toList same
        rw [cut, cut'] at texts
        obtain ⟨ids, -, ends⟩ := Text.eq_of_cut_last clear clear' texts
        have numbers := congrArg (fun digits => Nat.ofDigitChars 10 digits 0)
          (List.append_cancel_left ends)
        exact ⟨String.toList_inj.mp ids, by simpa [Nat.toString_eq_ofList_toDigits] using numbers⟩
  · rintro ⟨ids, rfl⟩
    rw [idAt, idAt, ids]

end Ids

/-- The routes whose handler is in the index. -/
def knownRoutes (index : RepoIndex) (files : List SourceFile) : List RouteInfo :=
  (Route.ofFiles files).filter fun route => (index.nodes[route.handlerId]?).isSome

/-- An arc found by its own id, whose links all lead to other arcs of its route. -/
structure Navigable (arcs : List StoryArc) (arc : StoryArc) : Prop where
  found : find arcs arc.id = .ok arc
  linked : ∀ id ∈ arc.parentId.toList ++ arc.relatedIds, ∃ other ∈ arcs,
    find arcs id = .ok other ∧ other.route = arc.route ∧ other.threadIndex ≠ arc.threadIndex

theorem find_eq_ok_of_unique {arcs : List StoryArc} {arc : StoryArc} (member : arc ∈ arcs)
    (unique : ∀ other ∈ arcs, other.id = arc.id → other = arc) : find arcs arc.id = .ok arc := by
  rw [find]
  cases found : arcs.find? fun other => other.id == arc.id with
  | none => exact absurd (List.find?_eq_none.mp found arc member) (by simp)
  | some other =>
      have ids : other.id = arc.id := by simpa using List.find?_some found
      rw [unique other (List.mem_of_find?_eq_some found) ids]

theorem eq_of_find {arcs : List StoryArc} {arc other : StoryArc}
    (found : find arcs arc.id = .ok arc) (found' : find arcs other.id = .ok other)
    (same : arc.id = other.id) : arc = other := by
  rw [same, found'] at found
  exact (Except.ok.inj found).symm

section Arcs

variable {index : RepoIndex} {config : StoryConfig} {route : RouteInfo} {arc : StoryArc}

theorem length_ofRoute (index : RepoIndex) (config : StoryConfig) (route : RouteInfo) :
    (ofRoute index config route).length = (Thread.all index config route.handlerId).length := by
  simp [ofRoute]

/-- The arc at a place among the arcs of a route. -/
theorem getElem?_ofRoute {place : Nat} (found : (ofRoute index config route)[place]? = some arc) :
    arc.route = route ∧ arc.threadIndex = place ∧ arc.id = idAt route place ∧
      ∀ id ∈ arc.parentId.toList ++ arc.relatedIds,
        ∃ spot, spot < (ofRoute index config route).length ∧ spot ≠ place ∧
          id = idAt route spot := by
  have within := (List.getElem?_eq_some_iff.mp found).1
  rw [length_ofRoute] at within ⊢
  simp only [ofRoute, List.getElem?_map, List.getElem?_zipIdx, Option.map_map,
    Option.map_eq_some_iff, Function.comp_apply, Nat.zero_add] at found
  obtain ⟨scenes, -, rfl⟩ := found
  refine ⟨rfl, rfl, rfl, fun id member => ?_⟩
  rcases List.mem_append.mp member with parent | related
  · simp only [Option.mem_toList, Option.ite_none_left_eq_some, Option.some.injEq] at parent
    obtain ⟨branch, rfl⟩ := parent
    exact ⟨0, by omega, Ne.symm branch, rfl⟩
  · obtain ⟨spot, listed, rfl⟩ := List.mem_map.mp related
    obtain ⟨inside, other⟩ := List.mem_filter.mp listed
    exact ⟨spot, List.mem_range.mp inside, by simpa using other, rfl⟩

theorem map_id_ofRoute (index : RepoIndex) (config : StoryConfig) (route : RouteInfo) :
    (ofRoute index config route).map StoryArc.id =
      (List.range (ofRoute index config route).length).map (idAt route) := by
  refine List.ext_getElem? fun place => ?_
  rw [List.getElem?_map, List.getElem?_map]
  cases found : (ofRoute index config route)[place]? with
  | none =>
      rw [List.getElem?_eq_none_iff] at found
      rw [List.getElem?_eq_none (by simpa using found)]
      rfl
  | some arc =>
      have within := (List.getElem?_eq_some_iff.mp found).1
      rw [List.getElem?_range within, Option.map_some, Option.map_some,
        (getElem?_ofRoute found).2.2.1]

/-- A known handler has an arc at the first place. -/
theorem ofRoute_length_pos (known : (index.nodes[route.handlerId]?).isSome = true)
    (config : StoryConfig) :
    0 < (ofRoute index config route).length := by
  obtain ⟨node, found⟩ := Option.isSome_iff_exists.mp known
  rw [length_ofRoute]
  simp only [Thread.all, Thread.walk, found, List.isEmpty_cons, Bool.false_eq_true, if_false,
    List.length_cons]
  omega

end Arcs

section Files

variable {index : RepoIndex} {files : List SourceFile} {config : StoryConfig}

theorem ofFiles_perm (index : RepoIndex) (files : List SourceFile) (config : StoryConfig) :
    (ofFiles index files config).Perm ((knownRoutes index files).flatMap (ofRoute index config)) :=
  List.mergeSort_perm _ _

theorem mem_ofFiles_iff {arc : StoryArc} : arc ∈ ofFiles index files config ↔
    ∃ route ∈ knownRoutes index files, ∃ place : Nat,
      (ofRoute index config route)[place]? = some arc := by
  rw [(ofFiles_perm index files config).mem_iff, List.mem_flatMap]
  simp only [List.mem_iff_getElem?]

theorem exists_main {route : RouteInfo} (listed : route ∈ knownRoutes index files)
    (config : StoryConfig) :
    ∃ arc ∈ ofFiles index files config, arc.route = route ∧ arc.id = mainId route := by
  have within := ofRoute_length_pos (List.mem_filter.mp listed).2 config
  have found := List.getElem?_eq_getElem within
  obtain ⟨same, -, id, -⟩ := getElem?_ofRoute found
  exact ⟨_, mem_ofFiles_iff.mpr ⟨route, listed, 0, found⟩, same, id⟩

/-- The arcs of two routes have ids in common only if both routes have the same digest. -/
theorem disjoint_ids_iff {route other : RouteInfo} (listed : route ∈ knownRoutes index files)
    (listed' : other ∈ knownRoutes index files) :
    List.Disjoint ((ofRoute index config route).map StoryArc.id)
      ((ofRoute index config other).map StoryArc.id) ↔
      mainId route ≠ mainId other := by
  rw [map_id_ofRoute, map_id_ofRoute]
  constructor
  · intro disjoint same
    refine disjoint (a := mainId route) ?_ ?_
    · exact List.mem_map.mpr ⟨0,
        List.mem_range.mpr (ofRoute_length_pos (List.mem_filter.mp listed).2 config), rfl⟩
    · exact List.mem_map.mpr
        ⟨0, List.mem_range.mpr (ofRoute_length_pos (List.mem_filter.mp listed').2 config),
          same.symm⟩
  · intro different id here there
    obtain ⟨place, -, rfl⟩ := List.mem_map.mp here
    obtain ⟨spot, -, same⟩ := List.mem_map.mp there
    exact different (idAt_eq_iff.mp same.symm).1

theorem nodup_ids_iff : ((ofFiles index files config).map StoryArc.id).Nodup ↔
    ((knownRoutes index files).map mainId).Nodup := by
  have each : ∀ route ∈ knownRoutes index files,
      ((ofRoute index config route).map StoryArc.id).Nodup := by
    intro route _
    rw [map_id_ofRoute]
    exact List.nodup_range.map fun place spot same => (idAt_eq_iff.mp same).2
  rw [((ofFiles_perm index files config).map StoryArc.id).nodup_iff, List.map_flatMap,
    List.nodup_flatMap, and_iff_right each]
  unfold List.Nodup
  rw [List.pairwise_map]
  exact List.Pairwise.iff_of_mem fun here there => disjoint_ids_iff here there

theorem nodup_mainId_iff
    (apart : ∀ route ∈ knownRoutes index files, ∀ other ∈ knownRoutes index files,
      mainId route = mainId other → payload route = payload other) :
    ((knownRoutes index files).map mainId).Nodup ↔
      ((knownRoutes index files).map payload).Nodup := by
  unfold List.Nodup
  rw [List.pairwise_map, List.pairwise_map]
  refine List.Pairwise.iff_of_mem fun here there => not_congr ⟨apart _ here _ there, fun same => ?_⟩
  rw [mainId, mainId, same]

theorem navigable_iff (apart : ∀ route ∈ knownRoutes index files, ∀ other ∈ knownRoutes index files,
    mainId route = mainId other → payload route = payload other) :
    (∀ arc ∈ ofFiles index files config, Navigable (ofFiles index files config) arc) ↔
      ∀ route ∈ knownRoutes index files, ∀ other ∈ knownRoutes index files,
        payload route = payload other → route = other := by
  constructor
  · intro navigable route listed other listed' same
    obtain ⟨main, member, rfl, id⟩ := exists_main listed config
    obtain ⟨rival, member', rfl, id'⟩ := exists_main listed' config
    have ids : main.id = rival.id := by
      rw [id, id', mainId, mainId, same]
    rw [eq_of_find (navigable main member).found (navigable rival member').found ids]
  · intro distinct
    -- Arcs of one id have one route, and one place among its arcs.
    have found : ∀ arc ∈ ofFiles index files config,
        find (ofFiles index files config) arc.id = .ok arc := by
      intro arc member
      refine find_eq_ok_of_unique member fun other member' same => ?_
      obtain ⟨route, listed, place, there⟩ := mem_ofFiles_iff.mp member
      obtain ⟨route', listed', place', there'⟩ := mem_ofFiles_iff.mp member'
      rw [(getElem?_ofRoute there).2.2.1, (getElem?_ofRoute there').2.2.1, idAt_eq_iff] at same
      obtain ⟨digests, rfl⟩ := same
      rw [distinct _ listed' _ listed (apart _ listed' _ listed digests), there] at there'
      exact (Option.some.inj there').symm
    intro arc member
    refine ⟨found arc member, fun id linked => ?_⟩
    obtain ⟨route, listed, place, there⟩ := mem_ofFiles_iff.mp member
    obtain ⟨same, position, -, links⟩ := getElem?_ofRoute there
    obtain ⟨spot, within, other, rfl⟩ := links id linked
    have target := List.getElem?_eq_getElem within
    obtain ⟨same', index', id', -⟩ := getElem?_ofRoute target
    have listed' := mem_ofFiles_iff.mpr ⟨route, listed, spot, target⟩
    refine ⟨_, listed', ?_, same'.trans same.symm, ?_⟩
    · rw [← id']
      exact found _ listed'
    · rw [index', position]
      exact other

/-- Where no two payloads share the digits of an id, the ids of all arcs differ if and only if the
payloads of their routes do, and all arcs can be found by their ids, and the others of a route by
the links, if and only if no two different routes share a payload. Legible routes share it when
handler, path and methods are the same. -/
theorem ofFiles_ids_iff (index : RepoIndex) (files : List SourceFile) (config : StoryConfig)
    (apart : ∀ route ∈ knownRoutes index files, ∀ other ∈ knownRoutes index files,
      mainId route = mainId other → payload route = payload other) :
    (((ofFiles index files config).map StoryArc.id).Nodup ↔
      ((knownRoutes index files).map payload).Nodup) ∧
    ((∀ arc ∈ ofFiles index files config, Navigable (ofFiles index files config) arc) ↔
      ∀ route ∈ knownRoutes index files, ∀ other ∈ knownRoutes index files,
        payload route = payload other → route = other) ∧
    ∀ route ∈ knownRoutes index files, ∀ other ∈ knownRoutes index files,
      Route.Legible route → Route.Legible other → (payload route = payload other ↔
        route.handlerId = other.handlerId ∧ route.path = other.path ∧
          route.methods = other.methods) := by
  refine ⟨nodup_ids_iff.trans (nodup_mainId_iff apart), navigable_iff apart, ?_⟩
  intro route listed other listed' legible legible'
  exact payload_eq_iff legible legible'
    (Route.empty_not_mem_methods (List.mem_of_mem_filter listed))
    (Route.empty_not_mem_methods (List.mem_of_mem_filter listed'))

end Files

end StoryArc

/-- A module that declares a request handler twice, the second time for some method of three
letters. -/
def redeclaredHandler (method : String) : SourceFile where
  path := "app.py"
  language := .python
  text := "@a.get('/')\ndef f(): pass\n@a." ++ method ++ "('/')\ndef f(): pass"
  tree := some (.plain "module" none 0 51 ([0, 26].map fun start =>
    .plain "decorated_definition" none start (start + 25)
      [.plain "decorator" none start (start + 11) [.plain "call" none (start + 1) (start + 11)
        [.plain "attribute" (some "function") (start + 1) (start + 6)
          [.plain "identifier" (some "object") (start + 1) (start + 2) [],
           .plain "identifier" (some "attribute") (start + 3) (start + 6) []],
         .plain "argument_list" (some "arguments") (start + 6) (start + 11)
          [.plain "string" none (start + 7) (start + 10) []]]],
       .plain "function_definition" (some "definition") (start + 12) (start + 25)
        [.plain "identifier" (some "name") (start + 16) (start + 17) [],
         .plain "block" (some "body") (start + 21) (start + 25) []]]))

/-- An index that has the handler and two functions that it calls. -/
def handlerIndex : RepoIndex :=
  .ofGraph
    (["symbol:app.f", "symbol:app.g", "symbol:app.h"].foldl
      (fun nodes id => nodes.insert id ⟨id, id, .function, "", none, none, none, none⟩) ∅)
    [⟨"symbol:app.f", "symbol:app.g", .calls, .high⟩,
      ⟨"symbol:app.f", "symbol:app.h", .calls, .high⟩]

namespace StoryArc

theorem ofFiles_ids_iff_two_methods :
    (knownRoutes handlerIndex [redeclaredHandler "put"]).map payload =
      ["symbol:app.f|/|GET", "symbol:app.f|/|PUT"] ∧
      ((ofFiles handlerIndex [redeclaredHandler "put"] {}).map StoryArc.id).Nodup ∧
      ∀ arc ∈ ofFiles handlerIndex [redeclaredHandler "put"] {},
        Navigable (ofFiles handlerIndex [redeclaredHandler "put"] {}) arc := by
  have payloads : (knownRoutes handlerIndex [redeclaredHandler "put"]).map payload =
      ["symbol:app.f|/|GET", "symbol:app.f|/|PUT"] := by decide +kernel
  have digits : (Digest.ofText "symbol:app.f|/|GET").toList.take 12 ≠
      (Digest.ofText "symbol:app.f|/|PUT").toList.take 12 := by decide +kernel
  have apart : ∀ route ∈ knownRoutes handlerIndex [redeclaredHandler "put"],
      ∀ other ∈ knownRoutes handlerIndex [redeclaredHandler "put"],
        mainId route = mainId other → payload route = payload other := by
    intro route listed other listed' same
    have read : payload route ∈ ["symbol:app.f|/|GET", "symbol:app.f|/|PUT"] :=
      payloads ▸ List.mem_map_of_mem listed
    have read' : payload other ∈ ["symbol:app.f|/|GET", "symbol:app.f|/|PUT"] :=
      payloads ▸ List.mem_map_of_mem listed'
    rw [mainId, mainId, String.append_right_inj, String.ofList_inj] at same
    rcases List.mem_pair.mp read with get | put <;> rcases List.mem_pair.mp read' with get' | put'
    · rw [get, get']
    · rw [get, put'] at same
      exact absurd same digits
    · rw [put, get'] at same
      exact absurd same.symm digits
    · rw [put, put']
  obtain ⟨ids, links, -⟩ := ofFiles_ids_iff handlerIndex [redeclaredHandler "put"] {} apart
  exact ⟨payloads, ids.mpr (by rw [payloads]; decide), links.mpr (by decide +kernel)⟩

/-- A handler that is declared again for the same route has two arcs with one id, and only one is
found. -/
theorem ofFiles_ids_shared :
    ¬((ofFiles handlerIndex [redeclaredHandler "get"] {}).map StoryArc.id).Nodup ∧
      ¬∀ arc ∈ ofFiles handlerIndex [redeclaredHandler "get"] {},
        Navigable (ofFiles handlerIndex [redeclaredHandler "get"] {}) arc := by
  have shared : ∀ route ∈ knownRoutes handlerIndex [redeclaredHandler "get"],
      ∀ other ∈ knownRoutes handlerIndex [redeclaredHandler "get"],
      payload route = payload other := by decide +kernel
  have apart : ∀ route ∈ knownRoutes handlerIndex [redeclaredHandler "get"],
      ∀ other ∈ knownRoutes handlerIndex [redeclaredHandler "get"],
        mainId route = mainId other → payload route = payload other :=
    fun route listed other listed' _ => shared route listed other listed'
  rw [nodup_ids_iff, nodup_mainId_iff apart, navigable_iff apart]
  decide +kernel

end StoryArc

end SourceAtlas
