/- The outline of a Python file: declarations, imports, call sites and route decorators. -/
import SourceAtlas.Outline.Declaration

namespace SourceAtlas.Python

/-- A literal argument as far as routes need it. -/
inductive Literal where
  | text (value : String)
  | texts (values : List String)
  | other
deriving DecidableEq, Repr

structure Decorator where
  /-- The dotted name of the decorator. -/
  target : List String
  isCall : Bool
  args : List Literal
  kwargs : List (String × Literal)
deriving DecidableEq, Repr

/-- The last part of a dotted decorator name that has more than one part. -/
def Decorator.attribute? (decorator : Decorator) : Option String :=
  if decorator.target.length < 2 then none else decorator.target.getLast?

inductive Callee where
  | name (name : String)
  /-- A member of a receiver; only a dotted name is kept of the receiver. -/
  | member (receiver : Option (List String)) (name : String)
deriving DecidableEq, Repr

structure Call where
  callee : Callee
  /-- The first argument when it is a plain name. -/
  firstArg : Option String
deriving DecidableEq, Repr

structure Function where
  declaration : Declaration
  decorators : List Decorator
  calls : List Call
deriving DecidableEq, Repr

structure Class where
  declaration : Declaration
  bases : List (List String)
  methods : List Function
deriving DecidableEq, Repr

inductive Import where
  | module (module : String) (localName : Option String)
  /-- Names taken from a module, each with the local name it is given; `level` counts the leading
  dots. -/
  | names (level : Nat) (module : Option String) (names : List (String × Option String))
deriving DecidableEq, Repr

structure Blueprint where
  variableName : String
  location : SourceLocation
deriving DecidableEq, Repr

structure Outline where
  classes : List Class
  functions : List Function
  imports : List Import
  blueprints : List Blueprint
deriving DecidableEq, Repr

instance : Inhabited Outline := ⟨⟨[], [], [], []⟩⟩

/-- What one top-level statement adds to the outline. -/
inductive Item where
  | class (value : Class)
  | function (value : Function)
  | import (value : Import)
  | blueprint (value : Blueprint)

def Item.class? : Item → Option Class
  | .class value => some value
  | _ => none

def Item.function? : Item → Option Function
  | .function value => some value
  | _ => none

def Item.import? : Item → Option Import
  | .import value => some value
  | _ => none

def Item.blueprint? : Item → Option Blueprint
  | .blueprint value => some value
  | _ => none

def Outline.ofItems (items : List Item) : Outline where
  classes := items.filterMap Item.class?
  functions := items.filterMap Item.function?
  imports := items.filterMap Item.import?
  blueprints := items.filterMap Item.blueprint?

section Reading

variable (file : SourceFile)

mutual

/-- The parts of a dotted name; any other expression has none. -/
def dottedParts : SyntaxTree → Option (List String)
  | .node label children =>
    match label.kind with
    | "identifier" => some [file.textOf (.node label children)]
    | "attribute" => do
      let parts ← dottedObject children
      let member ← file.fieldText? (.node label children) "attribute"
      return parts ++ [member]
    | "dotted_name" => some (Text.split '.' (file.textOf (.node label children)))
    | _ => none

/-- The dotted name in the object field among the children of an attribute. -/
def dottedObject : List SyntaxTree → Option (List String)
  | [] => none
  | tree :: rest => if tree.inField "object" then dottedParts tree else dottedObject rest

end

/-- A string literal's source text without its letters and quotes. -/
def stripQuotes (raw : String) : String :=
  let bare := String.ofList (raw.toList.dropWhile fun c => c ∈ "rRbBuUfF".toList)
  let unquoted := ["\"\"\"", "'''", "\"", "'"].findSome? fun quote =>
    (Text.dropStart? quote bare).bind (Text.dropEnd? quote)
  unquoted.getD bare

/-- The value of a string node: its content parts, or its source text without quotes. -/
def stringValue? (tree : SyntaxTree) : Option String :=
  if tree.kind = "string" then
    let parts := tree.namedChildren.filter fun part => part.kind == "string_content"
    if parts.isEmpty then some (stripQuotes (file.textOf tree))
    else some (Text.join "" (parts.map file.textOf))
  else none

/-- What remains of a text after a number of bytes, when they are whole characters. -/
def dropBytes? : Nat → List Char → Option (List Char)
  | 0, text => some text
  | _, [] => none
  | count, c :: rest => if c.utf8Size ≤ count then dropBytes? (count - c.utf8Size) rest else none
termination_by _ text => text.length

/-- The number of bytes of the blanks that a line starts with. -/
def indentOf (line : List Char) : Nat :=
  (line.takeWhile Text.isBlank).foldl (fun size c => size + c.utf8Size) 0

/-- A docstring without the common indentation of its later lines.
A later line that cannot be cut there is trimmed instead. -/
def dedent (text : String) : String :=
  match Text.lines (Text.trimChars text.toList) with
  | [] => ""
  | first :: later =>
    let indented := later.filter fun line => !(Text.trimChars line).isEmpty
    let indent := ((indented.map indentOf).min?).getD 0
    let cut := later.map fun line =>
      String.ofList ((dropBytes? indent line).getD (Text.trimChars line))
    Text.join "\n" (String.ofList (Text.trimChars first) :: cut)

/-- The text of a string that stands first in a declaration's body. -/
def docstring? (tree : SyntaxTree) : Option String := do
  let body ← tree.child? "body"
  let first ← body.namedChildren.head?
  guard (first.kind = "expression_statement")
  let expression ← first.namedChildren.head?
  let text ← stringValue? file expression
  nonempty? (dedent text)

def declaration? (tree : SyntaxTree) : Option Declaration := do
  let name ← file.fieldText? tree "name"
  return {
    name
    location := file.locate tree
    signature := file.signatureOf tree
    doc := docstring? file tree }

/-- The callee of a call node, when it is a name or an attribute. -/
def callee? (function : SyntaxTree) : Option Callee :=
  match function.kind with
  | "identifier" => some (.name (file.textOf function))
  | "attribute" =>
    (file.fieldText? function "attribute").map fun name =>
      .member ((function.child? "object").bind (dottedParts file)) name
  | _ => none

def call? (tree : SyntaxTree) : Option Call := do
  let function ← tree.child? "function"
  let callee ← callee? file function
  let first := (tree.child? "arguments").bind fun arguments => arguments.namedChildren.head?
  return { callee, firstArg := (first.filter fun arg => arg.kind == "identifier").map file.textOf }

/-- The calls of a body in document order. -/
def callsIn (body : SyntaxTree) : List Call :=
  (body.descendants.filter fun tree => tree.kind == "call").filterMap (call? file)

def function? (decorators : List Decorator) (tree : SyntaxTree) : Option Function :=
  (declaration? file tree).map fun declaration =>
    { declaration, decorators, calls := ((tree.child? "body").map (callsIn file)).getD [] }

def literal (tree : SyntaxTree) : Literal :=
  match tree.kind with
  | "string" => ((stringValue? file tree).map Literal.text).getD .other
  | "list" | "tuple" | "set" =>
    .texts ((tree.namedChildren.filterMap (stringValue? file)).filter (· ≠ ""))
  | _ => .other

/-- A keyword argument; one without a name is left out. -/
def keyword? (arg : SyntaxTree) : Option (String × Literal) :=
  (file.fieldText? arg "name").map fun name =>
    (name, ((arg.child? "value").map (literal file)).getD .other)

def decorator? (expression : SyntaxTree) : Option Decorator :=
  if expression.kind = "call" then do
    let target ← (expression.child? "function").bind (dottedParts file)
    let arguments := ((expression.child? "arguments").map SyntaxTree.namedChildren).getD []
    let (keywords, positional) := arguments.partition fun arg => arg.kind == "keyword_argument"
    return { target, isCall := true, args := positional.map (literal file),
             kwargs := keywords.filterMap (keyword? file) }
  else
    (dottedParts file expression).map fun target =>
      { target, isCall := false, args := [], kwargs := [] }

/-- The decorators of a decorated definition that have a dotted name. -/
def decoratorsOf (tree : SyntaxTree) : List Decorator :=
  (tree.namedChildren.filter fun child => child.kind == "decorator").filterMap fun decorator =>
    decorator.namedChildren.head?.bind (decorator? file)

/-- A member of a class body that is a function, decorated or not. -/
def method? (item : SyntaxTree) : Option Function :=
  match item.kind with
  | "function_definition" => function? file [] item
  | "decorated_definition" =>
    match item.child? "definition" with
    | some definition =>
      if definition.kind = "function_definition" then
        function? file (decoratorsOf file item) definition
      else none
    | none => none
  | _ => none

def class? (tree : SyntaxTree) : Option Class :=
  (declaration? file tree).map fun declaration =>
    { declaration
      bases := ((tree.child? "superclasses").map fun bases =>
        bases.namedChildren.filterMap (dottedParts file)).getD []
      methods := ((tree.child? "body").map fun body =>
        body.namedChildren.filterMap (method? file)).getD [] }

/-- The imports of one `import` statement. -/
def moduleImports (tree : SyntaxTree) : List Import :=
  (tree.childrenIn "name").filterMap fun name =>
    match name.kind with
    | "dotted_name" => some (.module (file.textOf name) none)
    | "aliased_import" =>
      (file.fieldText? name "name").map fun module => .module module (file.fieldText? name "alias")
    | _ => none

/-- One imported name and the local name it is given. -/
def importedName? (name : SyntaxTree) : Option (String × Option String) :=
  match name.kind with
  | "dotted_name" => some (file.textOf name, none)
  | "aliased_import" =>
    (file.fieldText? name "name").map fun imported => (imported, file.fieldText? name "alias")
  | _ => none

/-- The number of leading dots and the module of a `from` clause. -/
def importOrigin (tree : SyntaxTree) : Nat × Option String :=
  if tree.kind = "relative_import" then
    let dots := (tree.namedChildren.filter fun part => part.kind == "import_prefix").getLast?
    let name := (tree.namedChildren.filter fun part => part.kind == "dotted_name").getLast?
    ((dots.map fun part => (file.textOf part).toList.count '.').getD 0, name.map file.textOf)
  else (0, some (file.textOf tree))

/-- The import of one `from` statement. -/
def namesImport? (tree : SyntaxTree) : Option Import :=
  (tree.child? "module_name").map fun origin =>
    let (level, module) := importOrigin file origin
    .names level module ((tree.childrenIn "name").filterMap (importedName? file))

/-- An assignment of a blueprint to a plain name. -/
def blueprint? (tree : SyntaxTree) : Option Blueprint := do
  guard (tree.kind = "assignment")
  let left ← tree.child? "left"
  let right ← tree.child? "right"
  guard (left.kind = "identifier" ∧ right.kind = "call")
  let callee ← (right.child? "function").bind (dottedParts file)
  guard (callee.getLast? = some "Blueprint")
  return { variableName := file.textOf left, location := file.locate tree }

/-- What one top-level statement declares. -/
def statement (tree : SyntaxTree) : List Item :=
  match tree.kind with
  | "class_definition" => ((class? file tree).map Item.class).toList
  | "function_definition" => ((function? file [] tree).map Item.function).toList
  | "decorated_definition" =>
    match tree.child? "definition" with
    | some definition =>
      match definition.kind with
      | "function_definition" =>
        ((function? file (decoratorsOf file tree) definition).map Item.function).toList
      | "class_definition" => ((class? file definition).map Item.class).toList
      | _ => []
    | none => []
  | "import_statement" => (moduleImports file tree).map Item.import
  | "import_from_statement" => ((namesImport? file tree).map Item.import).toList
  | "expression_statement" => (tree.namedChildren.filterMap (blueprint? file)).map Item.blueprint
  | _ => []

end Reading

/-- The outline of a file; a file without a tree has an empty one. -/
def Outline.ofFile (file : SourceFile) : Outline :=
  match file.tree with
  | some root => .ofItems (root.namedChildren.flatMap (statement file))
  | none => default

end SourceAtlas.Python
