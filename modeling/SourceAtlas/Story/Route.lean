/- Web routes: the functions of Python files that a route decorator makes request handlers. -/
import SourceAtlas.Graph.Build

namespace SourceAtlas

/-- A handler function for one route. -/
structure RouteInfo where
  handlerId : String
  handlerName : String
  module : String
  filePath : String
  line : UInt64
  path : String
  methods : List String
deriving DecidableEq, Repr

namespace Route

/-- The attributes that make a decorator a route decorator. -/
def decoratorNames : List String :=
  ["route", "get", "post", "put", "patch", "delete", "head", "options"]

/-- The text of a literal, unless it is empty. -/
def nonemptyText? : Python.Literal → Option String
  | .text value => nonempty? value
  | _ => none

/-- The path in the first positional argument, or else in a keyword argument for it. -/
def pathOf (decorator : Python.Decorator) : String :=
  let positional := decorator.args.head?.bind nonemptyText?
  let keyword := decorator.kwargs.findSome? fun (name, value) =>
    if name = "rule" ∨ name = "path" then nonemptyText? value else none
  (positional.or keyword).getD ""

/-- The methods that a keyword argument lists. -/
def keywordMethods : String × Python.Literal → List String
  | ("methods", .text value) => [value]
  | ("methods", .texts values) => values
  | _ => []

/-- The request methods of a decorator, each once and in upper case: its own name first, then
those of its arguments. -/
def methodsOf (name : String) (decorator : Python.Decorator) : List String :=
  let own := if name = "route" then [] else [name]
  let declared := own ++ decorator.kwargs.flatMap keywordMethods
  ((declared.map Text.asciiUpper).filter (· ≠ "")).eraseDups

/-- The path and methods of a route decorator. -/
def ofDecorator? (decorator : Python.Decorator) : Option (String × List String) :=
  match decorator.isCall, decorator.attribute? with
  | true, some name =>
    if name ∈ decoratorNames then some (pathOf decorator, methodsOf name decorator) else none
  | _, _ => none

/-- The routes of one function. -/
def ofFunction (file : SourceFile) (module : String) (function : Python.Function) :
    List RouteInfo :=
  let name := function.declaration.name
  (function.decorators.filterMap ofDecorator?).map fun (path, methods) =>
    { handlerId := Identifier.symbol (Identifier.qualify module name)
      handlerName := name
      module
      filePath := file.path
      line := function.declaration.location.startLine
      path
      methods }

/-- The routes among the top-level functions of the Python files. -/
def ofFiles (files : List SourceFile) : List RouteInfo :=
  let module := moduleNames files
  (files.filter fun file => file.family == .python).flatMap fun file =>
    (Python.Outline.ofFile file).functions.flatMap (ofFunction file (module file))

/-- The request methods and the target of a route. -/
def label (route : RouteInfo) : String :=
  let methods := if route.methods.isEmpty then "ANY" else Text.join "|" route.methods
  let target := if route.path = "" then route.handlerName else route.path
  Text.trim (methods ++ " " ++ target)

end Route

end SourceAtlas
