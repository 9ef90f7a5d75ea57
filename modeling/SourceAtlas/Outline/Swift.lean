/- The outline of a Swift file: types, extensions, functions, imports and call sites. -/
import SourceAtlas.Outline.Declaration

namespace SourceAtlas.Swift

inductive TypeKind where
  | class : TypeKind
  | struct : TypeKind
  | enum : TypeKind
  | actor : TypeKind
  | protocol : TypeKind
  | extension : TypeKind
deriving DecidableEq, Repr

def TypeKind.name : TypeKind → String
  | .class => "class"
  | .struct => "struct"
  | .enum => "enum"
  | .actor => "actor"
  | .protocol => "protocol"
  | .extension => "extension"

/-- The kind that a declaration keyword names. -/
def TypeKind.ofKeyword? : String → Option TypeKind
  | "class" => some .class
  | "struct" => some .struct
  | "enum" => some .enum
  | "actor" => some .actor
  | "extension" => some .extension
  | _ => none

inductive Receiver where
  | self
  | super
  | name (name : String)
  | other
deriving DecidableEq, Repr

inductive Callee where
  | name (name : String)
  | member (receiver : Receiver) (name : String)
deriving DecidableEq, Repr

structure Function where
  declaration : Declaration
  calls : List Callee
deriving DecidableEq, Repr

/-- A type declaration, or an extension of a type declared elsewhere. -/
structure TypeDeclaration where
  kind : TypeKind
  declaration : Declaration
  bases : List String
  methods : List Function
deriving DecidableEq, Repr

def TypeDeclaration.isExtension (type : TypeDeclaration) : Bool := type.kind == .extension

structure Outline where
  types : List TypeDeclaration
  functions : List Function
  imports : List String
deriving DecidableEq, Repr

instance : Inhabited Outline := ⟨⟨[], [], []⟩⟩

section Reading

variable (file : SourceFile)

def kindOf? (tree : SyntaxTree) : Option TypeKind :=
  match tree.kind with
  | "class_declaration" =>
    let keyword := (tree.child? "declaration_kind").bind fun keyword =>
      TypeKind.ofKeyword? (file.textOf keyword)
    some (keyword.getD .class)
  | "struct_declaration" => some .struct
  | "enum_declaration" => some .enum
  | "extension_declaration" => some .extension
  | "protocol_declaration" => some .protocol
  | _ => none

/-- The simple name of a type expression: its last part, without type arguments. -/
def simpleName? (tree : SyntaxTree) : Option String := do
  let text ←
    if tree.kind = "user_type" then
      ((tree.namedChildren.filter fun part => part.kind == "type_identifier").getLast?).map
        file.textOf
    else some (file.textOf tree)
  nonempty? (Text.trim (String.ofList (text.toList.takeWhile (· ≠ '<'))))

/-- The name of a declared or extended type. -/
def typeName? (tree : SyntaxTree) : Option String := do
  let byField := ["name", "type_name", "extended_type"].findSome? tree.child?
  let byKind := tree.namedChildren.find? fun child =>
    child.kind == "type_identifier" || child.kind == "user_type"
  simpleName? file (← byField.or byKind)

/-- The first line of a declaration that is neither blank nor an annotation. -/
def signature? (tree : SyntaxTree) : Option String :=
  let lines := Text.lines (file.textOf tree).toList
  let opens (line : List Char) : Bool :=
    let line := Text.trimChars line
    !line.isEmpty && line.head? != some '@'
  let start := (lines.findIdx? opens).getD 0
  Text.signatureLine (String.ofList (['\n'].intercalate (lines.drop start)))

def declarationOf (before : List SyntaxTree) (tree : SyntaxTree) (name : String) : Declaration :=
  { name, location := file.locate tree, signature := signature? file tree,
    doc := DocComment.above file before }

/-- The receiver of a member call. -/
def receiver (target : Option SyntaxTree) : Receiver :=
  match target with
  | none => .other
  | some target =>
    match target.kind with
    | "self_expression" => .self
    | "super_expression" => .super
    | "simple_identifier" | "type_identifier" | "user_type" => .name (file.textOf target)
    | _ => .other

/-- The callee of a call node, when it is a name or a member. -/
def call? (tree : SyntaxTree) : Option Callee := do
  let callee ← tree.namedChildren.head?
  match callee.kind with
  | "simple_identifier" => some (.name (file.textOf callee))
  | "navigation_expression" =>
    let suffix ← callee.child? "suffix"
    let byKind := suffix.namedChildren.find? fun part => part.kind == "simple_identifier"
    let name ← (suffix.child? "suffix").or byKind
    some (.member (receiver file (callee.child? "target")) (file.textOf name))
  | _ => none

/-- The calls of a body in document order. -/
def callsIn (body : SyntaxTree) : List Callee :=
  (body.descendants.filter fun tree => tree.kind == "call_expression").filterMap (call? file)

/-- A function, a protocol requirement or an initialiser. -/
def function? (placed : SyntaxTree.Placed) : Option Function := do
  let tree := placed.tree
  let name ← match tree.kind with
    | "function_declaration" | "protocol_function_declaration" => file.fieldText? tree "name"
    | "init_declaration" => some "init"
    | _ => none
  return { declaration := declarationOf file placed.before tree name
           calls := ((tree.child? "body").map (callsIn file)).getD [] }

/-- The name of one entry of an inheritance clause. -/
def base? (specifier : SyntaxTree) : Option String :=
  ((specifier.child? "inherits_from").or specifier.namedChildren.head?).bind (simpleName? file)

def type? (placed : SyntaxTree.Placed) : Option TypeDeclaration := do
  let tree := placed.tree
  let kind ← kindOf? file tree
  let name ← typeName? file tree
  let specifiers := tree.namedChildren.filter fun child => child.kind == "inheritance_specifier"
  return { kind
           declaration := declarationOf file placed.before tree name
           bases := specifiers.filterMap (base? file)
           methods := ((tree.child? "body").map fun body =>
             body.placedChildren.filterMap (function? file)).getD [] }

/-- The module path of an import declaration. -/
def import? (tree : SyntaxTree) : Option String :=
  (tree.namedChildren.find? fun part => part.kind == "identifier").map fun part =>
    Text.trim (file.textOf part)

end Reading

/-- The outline of a file; a file without a tree has an empty one. -/
def Outline.ofFile (file : SourceFile) : Outline :=
  match file.tree with
  | none => default
  | some root =>
    let statements := root.placedChildren
    let ofKind (kind : String) := statements.filter fun child => child.tree.kind == kind
    { types := statements.filterMap (type? file)
      functions := (ofKind "function_declaration").filterMap (function? file)
      imports := (ofKind "import_declaration").filterMap fun child => import? file child.tree }

end SourceAtlas.Swift
