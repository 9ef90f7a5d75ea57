/- The Python front-end: how names resolve, and the scripts of the four passes. -/
import SourceAtlas.Linking.Shared
import SourceAtlas.Outline.Python
import SourceAtlas.Tables

namespace SourceAtlas.Python

open Resolution (tier ofTiers)

/-- The module that a `from` clause names, seen from an importing module. Each leading dot
leaves one part of the importer's name; more dots than parts leave none. -/
def importedModule (current : String) (module : Option String) (level : Nat) : String :=
  if level = 0 ∨ current = "" then module.getD ""
  else
    let parts := Text.split '.' current
    let package := parts.take (parts.length - level)
    let tail := (module.map (Text.split '.')).getD []
    Text.join "." (package ++ tail)

/-- The module of the repository that a dotted name means: the module of that name, or else
the one next to the importer. -/
def locate? (tables : SymbolTables) (current dotted : String) : Option (String × Confidence) :=
  if dotted = "" then none
  else if tables.hasModule dotted then some (dotted, .high)
  else
    let package := ((Text.cutLast? '.' current).map Prod.fst).getD ""
    let sibling := Identifier.qualify package dotted
    if package ≠ "" ∧ tables.hasModule sibling then some (sibling, .medium) else none

/-- An import of a located module leads to its file, any other to an external name. -/
def resolveModule (tables : SymbolTables) (located : Option (String × Confidence))
    (dotted : String) :
    Resolution :=
  match located.bind fun (name, confidence) =>
      (tables.moduleFile? name).map fun id => (⟨.node id, confidence⟩ : Resolution) with
  | some resolution => resolution
  | none => .external dotted

/-- What a base expression of a class refers to. -/
def resolveBase (tables : SymbolTables) (module : String) (base : List String) : Resolution :=
  let label := Text.join "." base
  match base with
  | [] => .external label
  | [name] =>
    ofTiers
      [tier .high (tables.classIn? module name),
       tables.boundSymbol? module name,
       tier .medium (tables.uniqueGlobalType? name)]
      label
  | _ =>
    let bound := tables.boundModule? module (Text.join "." base.dropLast)
    ofTiers [tier .medium (bound.bind fun home => tables.classIn? home (base.getLast?.getD ""))]
      label

/-- The method that a call on the instance or the class itself means. -/
def methodOnSelf? (tables : SymbolTables) (currentClass : Option String) (receiver : List String)
    (name : String) : Option String :=
  match receiver, currentClass with
  | [head], some classId =>
    if head = "self" ∨ head = "cls" then tables.methodInHierarchy? classId name else none
  | _, _ => none

/-- What a callee refers to, inside a module and possibly a class. -/
def resolveCall (tables : SymbolTables) (module : String) (currentClass : Option String) :
    Callee → Resolution
  | .name name =>
    ofTiers
      [tier .high (tables.local? module name),
       tables.boundSymbol? module name,
       tier .medium (tables.uniqueGlobal? name)]
      name
  | .member (some parts) name =>
    let receiver := Text.join "." parts
    ofTiers
      [tier .medium (methodOnSelf? tables currentClass parts name),
       tier .medium ((tables.typeNamed? module receiver).bind fun typeId =>
         tables.methodInHierarchy? typeId name),
       tier .medium ((tables.boundModule? module receiver).bind fun home =>
         tables.local? home name)]
      (receiver ++ "." ++ name)
  | .member none name => .external name

/-- The blueprint that a variable holds: one of this module, or one imported by name. -/
def blueprintOf? (tables : SymbolTables) (module variableName : String) : Option String :=
  match tables.blueprint? module variableName with
  | some id => some id
  | none =>
    match tables.binding? module variableName with
    | some (.symbol source name _) => tables.blueprint? source name
    | _ => none

/-- The blueprint that a call registers with an application. -/
def registeredBlueprint? (tables : SymbolTables) (module : String) (call : Call) : Option String :=
  match call.callee with
  | .member _ name =>
    if name = "register_blueprint" then call.firstArg.bind (blueprintOf? tables module) else none
  | .name _ => none

/-- The effects of one import statement. -/
def importEffects (tables : SymbolTables) (module : String) : Import → List ImportEffect
  | .module dotted localName =>
    let located := locate? tables module dotted
    let target := (located.map Prod.fst).getD dotted
    let bindings := match localName with
      | some localName => [ImportEffect.bind module localName (.module target)]
      | none =>
        -- The first part of a dotted name becomes usable as well.
        let head := (Text.cutFirst? '.' dotted).map fun (head, _) =>
          ImportEffect.bind module head
            (.module (((locate? tables module head).map Prod.fst).getD head))
        .bind module dotted (.module target) :: head.toList
    .reach (resolveModule tables located dotted) :: bindings
  | .names level origin names =>
    let base := importedModule module origin level
    if base = "" then []
    else
      let located := locate? tables module base
      let home := (located.map Prod.fst).getD base
      let submodules := names.filterMap fun (name, _) =>
        tables.moduleFile? (Identifier.qualify home name)
      let reached := submodules.map fun id =>
        ImportEffect.reach ⟨.node id, (located.map Prod.snd).getD .high⟩
      let itself := if submodules.length < names.length ∨ names.isEmpty then
          [ImportEffect.reach (resolveModule tables located base)]
        else []
      let bindings := names.map fun (name, localName) =>
        let localName := localName.getD name
        ImportEffect.bind module localName (.symbol home name (localName ≠ name))
      reached ++ itself ++ bindings

section Scripts

variable (unit : SourceUnit Outline)

/-- A blueprint gets a node once per variable name across all files. -/
def blueprintSteps (blueprint : Blueprint) : List Step :=
  let id := Identifier.blueprint blueprint.variableName
  let node : SymbolNode :=
    { id
      name := blueprint.variableName
      kind := .blueprint
      summary := ""
      signature := none
      docstring := none
      location := some blueprint.location
      module := some unit.module }
  [.adopt node unit.fileId .medium,
   .register (.blueprint unit.module blueprint.variableName id)]

def classSteps (cls : Class) : List Step :=
  let name := cls.declaration.name
  unit.symbolSteps cls.declaration .class ++
    cls.methods.flatMap fun method => unit.methodSteps (unit.symbolId name) name method.declaration

def definitionSteps : List Step :=
  unit.outline.blueprints.flatMap (blueprintSteps unit) ++
    unit.outline.classes.flatMap (classSteps unit) ++
    unit.outline.functions.flatMap fun function => unit.symbolSteps function.declaration .function

def importScript : Script := fun tables =>
  importSteps unit.fileId [] (unit.outline.imports.flatMap (importEffects tables unit.module))

/-- The bases of the classes that the module's tables know. -/
def baseScript : Script := fun tables =>
  unit.outline.classes.flatMap fun cls =>
    match tables.classIn? unit.module cls.declaration.name with
    | some classId => baseSteps classId (cls.bases.map (resolveBase tables unit.module))
    | none => []

/-- The edge that one call makes. -/
def callSteps (tables : SymbolTables) (currentClass : Option String) (source : String)
    (call : Call) :
    List Step :=
  match registeredBlueprint? tables unit.module call with
  | some blueprint => [.connect ⟨source, blueprint, .blueprint, .medium⟩]
  | none => Step.link source (resolveCall tables unit.module currentClass call.callee) .calls

def functionCallSteps (tables : SymbolTables) (function : Function) : List Step :=
  match tables.local? unit.module function.declaration.name with
  | some id => function.calls.flatMap (callSteps unit tables none id)
  | none => []

def classCallSteps (tables : SymbolTables) (cls : Class) : List Step :=
  match tables.classIn? unit.module cls.declaration.name with
  | some classId => cls.methods.flatMap fun method =>
    match tables.method? classId method.declaration.name with
    | some id => method.calls.flatMap (callSteps unit tables (some classId) id)
    | none => []
  | none => []

def callScript : Script := fun tables =>
  unit.outline.functions.flatMap (functionCallSteps unit tables) ++
    unit.outline.classes.flatMap (classCallSteps unit tables)

end Scripts

/-- The scripts of a pass over the Python files. -/
def scripts (units : List (SourceUnit Outline)) : Pass → List Script
  | .files => units.map fun unit => Script.fixed unit.fileSteps
  | .definitions => units.map fun unit => Script.fixed (definitionSteps unit)
  | .imports => units.map importScript
  | .relations => units.map baseScript ++ units.map callScript

end SourceAtlas.Python
