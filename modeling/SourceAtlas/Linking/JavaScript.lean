/- The JavaScript and TypeScript front-end: how names resolve, and the scripts of the four
passes. -/
import SourceAtlas.Linking.Shared
import SourceAtlas.Outline.JavaScript
import SourceAtlas.Tables

namespace SourceAtlas.JavaScript

open Resolution (tier ofTiers)

/-- What may follow the path that a relative specifier names. -/
def suffixes : List String := ["", ".js", ".jsx", ".ts", ".tsx"]

/-- The files that stand for their directory. -/
def indexFiles : List String := ["index.js", "index.jsx", "index.ts", "index.tsx"]

/-- The files that a relative path may mean, in the order in which they are tried.
The empty path is the repository root itself, which has index files only. -/
def candidates (path : String) : List String :=
  if path = "" then indexFiles
  else suffixes.map (path ++ ·) ++ indexFiles.map fun index => path ++ "/" ++ index

/-- The file of the repository that a relative specifier means. -/
def relativeFile? (tables : SymbolTables) (importer specifier : String) : Option String :=
  if Text.startsWith specifier "." then
    (candidates (Path.joinRelative (Path.parent importer) specifier)).find? tables.hasFile
  else none

/-- What a base expression of a class refers to. -/
def resolveBase (tables : SymbolTables) (module : String) (base : List String) : Resolution :=
  let label := Text.join "." base
  match base with
  | [] => .external label
  | [name] =>
    ofTiers
      [tier .high (tables.classIn? module name),
       tables.boundSymbol? module name,
       tier .medium (tables.uniqueGlobalType? name)]
      label
  | _ =>
    let bound := tables.boundModule? module (Text.join "." base.dropLast)
    ofTiers [tier .medium (bound.bind fun home => tables.classIn? home (base.getLast?.getD ""))]
      label

/-- What a callee refers to, inside a module and possibly a class. -/
def resolveCall (tables : SymbolTables) (module : String) (currentClass : Option String) :
    Callee → Resolution
  | .name name =>
    ofTiers
      [tier .high (tables.local? module name),
       tables.boundSymbol? module name,
       tier .medium (tables.uniqueGlobal? name)]
      name
  | .member .this name | .member .super name =>
    ofTiers [tier .medium (currentClass.bind fun classId => tables.methodInHierarchy? classId name)]
      name
  | .member (.path parts) name =>
    let receiver := Text.join "." parts
    ofTiers
      [tier .medium ((tables.typeNamed? module receiver).bind fun typeId =>
         tables.methodInHierarchy? typeId name),
       tier .medium ((tables.boundModule? module receiver).bind fun home =>
         tables.local? home name)]
      (receiver ++ "." ++ name)
  | .member .other name => .external name

/-- The local name and the meaning that an import from a module gives it.
A default import may have any name, so it counts as renamed. -/
def Binding.meaning (target : String) : Binding → String × ImportBinding
  | .namespace localName => (localName, .module target)
  | .default localName => (localName, .symbol target localName true)
  | .named name localName => (localName, .symbol target name (name ≠ localName))

section Scripts

variable (unit : SourceUnit Outline)

/-- The effects of one import statement. -/
def importEffects (tables : SymbolTables) (imported : Import) : List ImportEffect :=
  let file := relativeFile? tables unit.path imported.specifier
  let (resolution, target) : Resolution × String := match file with
    | some path => (⟨.node (Identifier.file path), .medium⟩, (tables.moduleOfFile? path).getD "")
    | none => (.external imported.specifier, imported.specifier)
  .reach resolution :: imported.bindings.map fun binding =>
    let (localName, meaning) := binding.meaning target
    .bind unit.module localName meaning

def classSteps (cls : Class) : List Step :=
  let name := cls.declaration.name
  unit.symbolSteps cls.declaration .class ++
    cls.methods.flatMap fun method => unit.methodSteps (unit.symbolId name) name method.declaration

def definitionSteps : List Step :=
  unit.outline.classes.flatMap (classSteps unit) ++
    unit.outline.functions.flatMap fun function => unit.symbolSteps function.declaration .function

def importScript : Script := fun tables =>
  importSteps unit.fileId [] (unit.outline.imports.flatMap (importEffects unit tables))

/-- The bases of the classes that the module's tables know. -/
def baseScript : Script := fun tables =>
  unit.outline.classes.flatMap fun cls =>
    match tables.classIn? unit.module cls.declaration.name with
    | some classId => baseSteps classId (cls.bases.map (resolveBase tables unit.module))
    | none => []

def functionCallSteps (tables : SymbolTables) (function : Function) : List Step :=
  match tables.local? unit.module function.declaration.name with
  | some id => function.calls.flatMap fun callee =>
    Step.link id (resolveCall tables unit.module none callee) .calls
  | none => []

def classCallSteps (tables : SymbolTables) (cls : Class) : List Step :=
  match tables.classIn? unit.module cls.declaration.name with
  | some classId => cls.methods.flatMap fun method =>
    match tables.method? classId method.declaration.name with
    | some id => method.calls.flatMap fun callee =>
      Step.link id (resolveCall tables unit.module (some classId) callee) .calls
    | none => []
  | none => []

def callScript : Script := fun tables =>
  unit.outline.functions.flatMap (functionCallSteps unit tables) ++
    unit.outline.classes.flatMap (classCallSteps unit tables)

end Scripts

/-- The scripts of a pass over the JavaScript and TypeScript files. -/
def scripts (units : List (SourceUnit Outline)) : Pass → List Script
  | .files => units.map fun unit => Script.fixed unit.fileSteps
  | .definitions => units.map fun unit => Script.fixed (definitionSteps unit)
  | .imports => units.map importScript
  | .relations => units.map baseScript ++ units.map callScript

end SourceAtlas.JavaScript
