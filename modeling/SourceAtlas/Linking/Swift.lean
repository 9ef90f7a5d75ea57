/- The Swift front-end: how names resolve, and the scripts of the four passes. Types are
registered before extensions, so that an extension in any file attaches its members to the type. -/
import SourceAtlas.Linking.Shared
import SourceAtlas.Outline.Swift
import SourceAtlas.Tables

namespace SourceAtlas.Swift

open Resolution (tier ofTiers)

/-- The type that a simple name means in a module: one of its own, or else the only one. -/
def knownType? (tables : SymbolTables) (module name : String) : Option String :=
  (tables.classIn? module name).or (tables.uniqueGlobalType? name)

/-- The type on which the members of a declaration live. -/
def ownerId? (tables : SymbolTables) (module : String) (type : TypeDeclaration) : Option String :=
  if type.isExtension then knownType? tables module type.declaration.name
  else tables.classIn? module type.declaration.name

/-- What a name in an inheritance clause refers to. -/
def resolveBase (tables : SymbolTables) (module base : String) : Resolution :=
  ofTiers [tier .high (tables.classIn? module base), tier .medium (tables.uniqueGlobalType? base)]
    base

/-- What a callee refers to, inside a module and possibly a type. A bare name may be a member
of the type around it. -/
def resolveCall (tables : SymbolTables) (module : String) (currentType : Option String) :
    Callee → Resolution
  | .name name =>
    ofTiers
      [tier .high (tables.local? module name),
       tier .medium (currentType.bind fun typeId => tables.methodInHierarchy? typeId name),
       tier .medium (tables.uniqueGlobal? name)]
      name
  | .member .self name | .member .super name =>
    ofTiers [tier .medium (currentType.bind fun typeId => tables.methodInHierarchy? typeId name)]
      name
  | .member (.name receiver) name =>
    ofTiers
      [tier .medium ((knownType? tables module receiver).bind fun typeId =>
        tables.methodInHierarchy? typeId name)]
      (receiver ++ "." ++ name)
  | .member .other name => .external name

section Scripts

variable (unit : SourceUnit Outline)

/-- Free functions, and the types that are no extensions. -/
def primarySteps : List Step :=
  (unit.outline.functions.flatMap fun function =>
      unit.symbolSteps function.declaration .function) ++
    (unit.outline.types.filter fun type => !type.isExtension).flatMap fun type =>
      unit.symbolSteps type.declaration .class

/-- The type that a declaration's members are attached to, and the steps that make it if
an extension finds no type to extend. -/
def owner (tables : SymbolTables) (type : TypeDeclaration) : String × List Step :=
  let own := unit.symbolId type.declaration.name
  if type.isExtension then
    match knownType? tables unit.module type.declaration.name with
    | some id => (id, [])
    | none => (own, unit.symbolSteps type.declaration .class)
  else (own, [])

/-- The members of one type or extension. -/
def memberScript (type : TypeDeclaration) : Script := fun tables =>
  let (ownerId, steps) := owner unit tables type
  steps ++ type.methods.flatMap fun method =>
    unit.methodSteps ownerId type.declaration.name method.declaration

/-- The effects of the imports: every imported module lies outside the repository. -/
def importScript : Script := fun _ =>
  importSteps unit.fileId [] (unit.outline.imports.map fun name => .reach (.external name))

/-- The bases of the types that the tables know. -/
def baseScript : Script := fun tables =>
  unit.outline.types.flatMap fun type =>
    match ownerId? tables unit.module type with
    | some typeId => baseSteps typeId (type.bases.map (resolveBase tables unit.module))
    | none => []

def functionCallSteps (tables : SymbolTables) (function : Function) : List Step :=
  match tables.local? unit.module function.declaration.name with
  | some id => function.calls.flatMap fun callee =>
    Step.link id (resolveCall tables unit.module none callee) .calls
  | none => []

def typeCallSteps (tables : SymbolTables) (type : TypeDeclaration) : List Step :=
  match ownerId? tables unit.module type with
  | some typeId => type.methods.flatMap fun method =>
    let id := unit.memberId type.declaration.name method.declaration.name
    method.calls.flatMap fun callee =>
      Step.link id (resolveCall tables unit.module (some typeId) callee) .calls
  | none => []

def callScript : Script := fun tables =>
  unit.outline.functions.flatMap (functionCallSteps unit tables) ++
    unit.outline.types.flatMap (typeCallSteps unit tables)

end Scripts

/-- The scripts of a pass over the Swift files. -/
def scripts (units : List (SourceUnit Outline)) : Pass → List Script
  | .files => units.map fun unit => Script.fixed unit.fileSteps
  | .definitions =>
    (units.map fun unit => Script.fixed (primarySteps unit)) ++
      units.flatMap fun unit => unit.outline.types.map (memberScript unit)
  | .imports => units.map importScript
  | .relations => units.map baseScript ++ units.map callScript

end SourceAtlas.Swift
