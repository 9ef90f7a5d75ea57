/- The outline of a JavaScript or TypeScript file: declarations, imports and call sites. -/
import SourceAtlas.Outline.Declaration

namespace SourceAtlas.JavaScript

inductive Receiver where
  | this
  | super
  | path (parts : List String)
  | other
deriving DecidableEq, Repr

inductive Callee where
  | name (name : String)
  | member (receiver : Receiver) (name : String)
deriving DecidableEq, Repr

structure Function where
  declaration : Declaration
  calls : List Callee
deriving DecidableEq, Repr

/-- A class or an interface. -/
structure Class where
  declaration : Declaration
  bases : List (List String)
  methods : List Function
deriving DecidableEq, Repr

/-- A local name made by an import. -/
inductive Binding where
  | default (localName : String)
  | named (name localName : String)
  | namespace (localName : String)
deriving DecidableEq, Repr

structure Import where
  specifier : String
  bindings : List Binding
deriving DecidableEq, Repr

structure Outline where
  classes : List Class
  functions : List Function
  imports : List Import
deriving DecidableEq, Repr

instance : Inhabited Outline := ⟨⟨[], [], []⟩⟩

/-- What one statement adds to the outline. -/
inductive Item where
  | class (value : Class)
  | function (value : Function)
  | import (value : Import)

def Item.class? : Item → Option Class
  | .class value => some value
  | _ => none

def Item.function? : Item → Option Function
  | .function value => some value
  | _ => none

def Item.import? : Item → Option Import
  | .import value => some value
  | _ => none

def Outline.ofItems (items : List Item) : Outline where
  classes := items.filterMap Item.class?
  functions := items.filterMap Item.function?
  imports := items.filterMap Item.import?

def isIdentifier (tree : SyntaxTree) : Bool :=
  tree.kind ∈ ["identifier", "property_identifier", "private_property_identifier"]

def isFunctionValue (tree : SyntaxTree) : Bool :=
  tree.kind ∈ ["arrow_function", "function_expression", "function", "generator_function"]

section Reading

variable (file : SourceFile)

mutual

/-- The parts of a chain of names; any other expression has none. -/
def valuePath : SyntaxTree → Option (List String)
  | .node label children =>
    if isIdentifier (.node label children) then some [file.textOf (.node label children)]
    else if label.kind = "member_expression" then do
      let parts ← valueObject children
      let property ← file.fieldText? (.node label children) "property"
      return parts ++ [property]
    else none

/-- The chain of names in the object field among the children of a member expression. -/
def valueObject : List SyntaxTree → Option (List String)
  | [] => none
  | tree :: rest => if tree.inField "object" then valuePath tree else valueObject rest

end

mutual

/-- The dotted name of a type expression, without its type arguments. -/
def typePath : SyntaxTree → Option (List String)
  | .node label children =>
    match label.kind with
    | "type_identifier" => some [file.textOf (.node label children)]
    | "nested_type_identifier" =>
      some ((Text.split '.' (file.textOf (.node label children))).map Text.trim)
    | "generic_type" => typeName children
    | _ => valuePath file (.node label children)

/-- The dotted name in the name field among the children of a generic type. -/
def typeName : List SyntaxTree → Option (List String)
  | [] => none
  | tree :: rest => if tree.inField "name" then typePath tree else typeName rest

end

/-- The text of a string literal between its quotes, unless that is empty. -/
def stringLiteral? (tree : SyntaxTree) : Option String :=
  if tree.kind = "string" ∨ tree.kind = "template_string" then
    nonempty? (Text.trimWhere (fun c => c = '\x27' || c = '\x22' || c = '\x60') (file.textOf tree))
  else none

def receiver (object : Option SyntaxTree) : Receiver :=
  match object with
  | none => .other
  | some object =>
    match object.kind with
    | "this" => .this
    | "super" => .super
    | _ => ((valuePath file object).map Receiver.path).getD .other

def callee? (tree : SyntaxTree) : Option Callee :=
  if isIdentifier tree ∨ tree.kind = "type_identifier" then some (.name (file.textOf tree))
  else if tree.kind = "member_expression" then
    (file.fieldText? tree "property").map fun name =>
      .member (receiver file (tree.child? "object")) name
  else none

/-- The callee of a call or construction node. -/
def call? (tree : SyntaxTree) : Option Callee :=
  match tree.kind with
  | "call_expression" => (tree.child? "function").bind (callee? file)
  | "new_expression" => (tree.child? "constructor").bind (callee? file)
  | _ => none

/-- The calls and constructions of a body in document order. -/
def callsIn (body : Option SyntaxTree) : List Callee :=
  match body with
  | some body => body.descendants.filterMap (call? file)
  | none => []

/-- The declaration of a node under a name; `before` are the earlier siblings of the node that
documentation comments attach to. -/
def declaration? (before : List SyntaxTree) (tree : SyntaxTree) (name : Option String) :
    Option Declaration :=
  (name.bind nonempty?).map fun name =>
    { name, location := file.locate tree, signature := file.signatureOf tree,
      doc := DocComment.above file before }

/-- The bases that one child of a class declaration lists. -/
def basesOf (child : SyntaxTree) : List (List String) :=
  match child.kind with
  | "class_heritage" => child.namedChildren.flatMap fun clause =>
    match clause.kind with
    | "extends_clause" | "implements_clause" => clause.namedChildren.filterMap (typePath file)
    | _ => (typePath file clause).toList
  | "extends_type_clause" => child.namedChildren.filterMap (typePath file)
  | _ => []

/-- A member of a class body that is a method, a method signature or a field with a function. -/
def method? (member : SyntaxTree.Placed) : Option Function :=
  let tree := member.tree
  match tree.kind with
  | "method_definition" | "method_signature" | "abstract_method_signature" =>
    (declaration? file member.before tree (file.fieldText? tree "name")).map fun declaration =>
      { declaration, calls := callsIn file (tree.child? "body") }
  | "field_definition" | "public_field_definition" => do
    let value ← (tree.child? "value").filter isFunctionValue
    let name := (file.fieldText? tree "property").or (file.fieldText? tree "name")
    let declaration ← declaration? file member.before tree name
    return { declaration, calls := callsIn file (some value) }
  | _ => none

def class? (before : List SyntaxTree) (tree : SyntaxTree) : Option Class :=
  (declaration? file before tree (file.fieldText? tree "name")).map fun declaration =>
    { declaration
      bases := tree.namedChildren.flatMap (basesOf file)
      methods := ((tree.child? "body").map fun body =>
        body.placedChildren.filterMap (method? file)).getD [] }

/-- The names that one specifier in braces imports. -/
def namedBinding? (specifier : SyntaxTree) : Option Binding :=
  if specifier.kind = "import_specifier" then
    (file.fieldText? specifier "name").map fun name =>
      .named name ((file.fieldText? specifier "alias").getD name)
  else none

/-- The local names that one part of an import clause makes. -/
def clauseBindings (part : SyntaxTree) : List Binding :=
  if isIdentifier part then [.default (file.textOf part)]
  else match part.kind with
    | "namespace_import" =>
      ((part.namedChildren.find? isIdentifier).map fun name => .namespace (file.textOf name)).toList
    | "named_imports" => part.namedChildren.filterMap (namedBinding? file)
    | _ => []

/-- The import of an `import` statement. -/
def import? (tree : SyntaxTree) : Option Import :=
  ((tree.child? "source").bind (stringLiteral? file)).map fun specifier =>
    let clauses := tree.namedChildren.filter fun child => child.kind == "import_clause"
    { specifier
      bindings := clauses.flatMap fun clause =>
        clause.namedChildren.flatMap (clauseBindings file) }

/-- The local name that one property of an object pattern makes. -/
def patternBinding? (property : SyntaxTree) : Option Binding :=
  match property.kind with
  | "shorthand_property_identifier_pattern" =>
    some (.named (file.textOf property) (file.textOf property))
  | "pair_pattern" => do
    let name ← file.fieldText? property "key"
    let localName ← file.fieldText? property "value"
    return .named name localName
  | _ => none

/-- The import of a `require` call whose result is given a name or taken apart. -/
def required? (name value : SyntaxTree) : Option Import := do
  guard (value.kind = "call_expression" ∧ file.fieldText? value "function" = some "require")
  let arguments ← value.child? "arguments"
  let specifier ← arguments.namedChildren.head?.bind (stringLiteral? file)
  let bindings :=
    if isIdentifier name then [Binding.namespace (file.textOf name)]
    else if name.kind = "object_pattern" then name.namedChildren.filterMap (patternBinding? file)
    else []
  return { specifier, bindings }

/-- What one declarator of a variable declaration adds: a function or an import. -/
def declarator (before : List SyntaxTree) (tree : SyntaxTree) : List Item :=
  match tree.kind, tree.child? "name", tree.child? "value" with
  | "variable_declarator", some name, some value =>
    if isFunctionValue value then
      let localName := if isIdentifier name then some (file.textOf name) else none
      ((declaration? file before tree localName).map fun declaration =>
        Item.function { declaration, calls := callsIn file (some value) }).toList
    else ((required? file name value).map Item.import).toList
  | _, _, _ => []

mutual

/-- What one statement declares. `docBefore` are the earlier siblings of the statement that
documentation attaches to, and `before` those of the statement itself: they differ inside an
export. -/
def statement (docBefore before : List SyntaxTree) : SyntaxTree → List Item
  | .node label children =>
    match label.kind with
    | "export_statement" => exported before [] children
    | "import_statement" => ((import? file (.node label children)).map Item.import).toList
    | "class_declaration" | "abstract_class_declaration" | "interface_declaration" =>
      ((class? file docBefore (.node label children)).map Item.class).toList
    | "function_declaration" | "generator_function_declaration" =>
      let tree := SyntaxTree.node label children
      ((declaration? file docBefore tree (file.fieldText? tree "name")).map fun declaration =>
        Item.function { declaration, calls := callsIn file (tree.child? "body") }).toList
    | "lexical_declaration" | "variable_declaration" =>
      (SyntaxTree.node label children).namedChildren.flatMap (declarator file docBefore)
    | _ => []

/-- What the declaration among the children of an export declares. -/
def exported (docBefore before : List SyntaxTree) : List SyntaxTree → List Item
  | [] => []
  | tree :: rest =>
    if tree.inField "declaration" then statement docBefore before tree
    else exported docBefore (tree :: before) rest

end

end Reading

/-- The outline of a file; a file without a tree has an empty one. -/
def Outline.ofFile (file : SourceFile) : Outline :=
  match file.tree with
  | some root => .ofItems (root.placedChildren.flatMap fun child =>
      statement file child.before child.before child.tree)
  | none => default

end SourceAtlas.JavaScript
