/- Story arcs: the threads of every route, with titles, summaries and stable ids. -/
import SourceAtlas.Digest.Sha256
import SourceAtlas.Error
import SourceAtlas.Story.Route
import SourceAtlas.Story.Thread

namespace SourceAtlas

inductive ThreadKind where
  | main
  | branch
deriving DecidableEq, Repr

def ThreadKind.name : ThreadKind → String
  | .main => "main"
  | .branch => "branch"

structure StoryArc where
  id : String
  title : String
  summary : String
  entryId : String
  route : RouteInfo
  thread : ThreadKind
  threadIndex : Nat
  parentId : Option String
  relatedIds : List String
  scenes : List Scene
deriving DecidableEq, Repr

namespace StoryArc

def sceneCount (arc : StoryArc) : Nat := arc.scenes.length

/-- What the id of a route's arcs is computed from. -/
def payload (route : RouteInfo) : String :=
  route.handlerId ++ "|" ++ route.path ++ "|" ++ Text.join "," route.methods

/-- The id of the main arc of a route. -/
def mainId (route : RouteInfo) : String :=
  "arc:" ++ String.ofList ((Digest.ofText (payload route)).toList.take 12)

/-- The id of the arc at a place among the arcs of a route. -/
def idAt (route : RouteInfo) (place : Nat) : String :=
  if place = 0 then mainId route else mainId route ++ ":branch-" ++ toString place

/-- The greatest length of a summary. -/
def summaryLimit : Nat := 160

/-- A sentence about the first stations of a thread. -/
def summaryOf (label : String) (scenes : List Scene) : String :=
  let names := (scenes.drop 1).map Scene.name
  let sentence :=
    if names.isEmpty then label ++ " starts here."
    else
      let more := if 3 < names.length then "..." else ""
      label ++ " calls " ++ Text.join ", " (names.take 3) ++ more ++ "."
  Text.compact summaryLimit sentence

/-- The arcs of one route: one for each thread from its handler. -/
def ofRoute (index : RepoIndex) (config : StoryConfig) (route : RouteInfo) : List StoryArc :=
  let threads := Thread.all index config route.handlerId
  let places := List.range threads.length
  let label := Route.label route
  threads.zipIdx.map fun (scenes, place) =>
    { id := idAt route place
      title := label
      summary := summaryOf label scenes
      entryId := route.handlerId
      route
      thread := if place = 0 then .main else .branch
      threadIndex := place
      parentId := if place = 0 then none else some (mainId route)
      relatedIds := (places.filter (· ≠ place)).map (idAt route)
      scenes }

/-- Arcs in order of route path, handler name and place. -/
def order : StoryArc → StoryArc → Ordering :=
  compareLex (compareOn fun arc => arc.route.path)
    (compareLex (compareOn fun arc => arc.route.handlerName) (compareOn StoryArc.threadIndex))

/-- The arcs of every route in the files whose handler is in the index. -/
def ofFiles (index : RepoIndex) (files : List SourceFile) (config : StoryConfig) : List StoryArc :=
  let routes := (Route.ofFiles files).filter fun route => (index.nodes[route.handlerId]?).isSome
  (routes.flatMap (ofRoute index config)).mergeSort fun a b => (a.order b).isLE

/-- The first arc with an id. -/
def find (arcs : List StoryArc) (id : String) : Except AtlasError StoryArc :=
  match arcs.find? fun arc => arc.id == id with
  | some arc => .ok arc
  | none => .error (.arcNotFound id)

end StoryArc

end SourceAtlas
