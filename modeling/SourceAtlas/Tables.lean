/- Symbol tables of one language family: what was declared and imported where, and the look-up of
methods through the recorded bases of a type, breadth first. -/
import SourceAtlas.Symbol
import SourceAtlas.TextMap

namespace SourceAtlas

/-- What an imported local name stands for. -/
inductive ImportBinding where
  /-- A whole module. -/
  | module (module : String)
  /-- One name of a module; `renamed` when the local name differs. -/
  | symbol (module name : String) (renamed : Bool)
deriving DecidableEq, Repr

/-- One entry made into the tables. -/
inductive Registration where
  | file (module path id : String)
  | symbol (module name id : String) (isType : Bool)
  | method (typeId name id : String)
  | binding (module localName : String) (binding : ImportBinding)
  | bases (typeId : String) (bases : List String)
  | blueprint (module variableName id : String)
deriving DecidableEq, Repr

/-- The names known in one module. -/
structure ModuleScope where
  fileId : Option String := none
  symbols : TextMap String := ∅
  classes : TextMap String := ∅
  bindings : TextMap ImportBinding := ∅
  blueprints : TextMap String := ∅
deriving DecidableEq

instance : Inhabited ModuleScope := ⟨{}⟩

/-- Look-up tables of one language family. Methods are kept by the id of the owning type,
and a type is known as soon as it was declared or owns a method. -/
structure SymbolTables where
  modules : TextMap ModuleScope := ∅
  methods : TextMap (TextMap String) := ∅
  bases : TextMap (List String) := ∅
  global : TextMap TextSet := ∅
  globalTypes : TextMap TextSet := ∅
  fileModules : TextMap String := ∅
deriving DecidableEq

namespace SymbolTables

instance : Inhabited SymbolTables := ⟨{}⟩

def empty : SymbolTables := {}

/-- The scope of a module; a module never mentioned has an empty one. -/
def scope (tables : SymbolTables) (module : String) : ModuleScope :=
  tables.modules.getD module {}

def setScope (tables : SymbolTables) (module : String) (scope : ModuleScope) : SymbolTables :=
  { tables with modules := tables.modules.insert module scope }

/-- A map of sets with one more member in the set of a key. -/
def addTo (sets : TextMap TextSet) (key member : String) : TextMap TextSet :=
  sets.insert key ((sets.getD key ∅).insert member)

def recordFile (tables : SymbolTables) (module path id : String) : SymbolTables :=
  let tables := tables.setScope module { tables.scope module with fileId := some id }
  { tables with fileModules := tables.fileModules.insert path module }

def recordSymbol (tables : SymbolTables) (module name id : String) : SymbolTables :=
  let scope := tables.scope module
  { tables.setScope module { scope with symbols := scope.symbols.insert name id } with
    global := addTo tables.global name id }

/-- The part of a type's declaration beyond that of any symbol. -/
def recordType (tables : SymbolTables) (module name id : String) : SymbolTables :=
  let scope := tables.scope module
  { tables.setScope module { scope with classes := scope.classes.insert name id } with
    methods := tables.methods.insert id (tables.methods.getD id ∅)
    globalTypes := addTo tables.globalTypes name id }

def recordMethod (tables : SymbolTables) (typeId name id : String) : SymbolTables :=
  { tables with
    methods := tables.methods.insert typeId ((tables.methods.getD typeId ∅).insert name id) }

def recordBinding (tables : SymbolTables) (module localName : String) (binding : ImportBinding) :
    SymbolTables :=
  let scope := tables.scope module
  tables.setScope module { scope with bindings := scope.bindings.insert localName binding }

/-- Bases are added to those recorded before; an empty list leaves no trace. -/
def recordBases (tables : SymbolTables) (typeId : String) (bases : List String) : SymbolTables :=
  if bases.isEmpty then tables
  else { tables with bases := tables.bases.insert typeId (tables.bases.getD typeId [] ++ bases) }

def recordBlueprint (tables : SymbolTables) (module variableName id : String) : SymbolTables :=
  let scope := tables.scope module
  tables.setScope module { scope with blueprints := scope.blueprints.insert variableName id }

/-- The tables after one more entry. -/
def record (tables : SymbolTables) : Registration → SymbolTables
  | .file module path id => tables.recordFile module path id
  | .symbol module name id isType =>
    let tables := tables.recordSymbol module name id
    if isType then tables.recordType module name id else tables
  | .method typeId name id => tables.recordMethod typeId name id
  | .binding module localName binding => tables.recordBinding module localName binding
  | .bases typeId bases => tables.recordBases typeId bases
  | .blueprint module variableName id => tables.recordBlueprint module variableName id

/-- The tables that a history of entries leads to. -/
def replay (history : List Registration) : SymbolTables :=
  history.foldl record empty

/-- A module is known once one of its files was registered, whatever else was said of it. -/
def moduleFile? (tables : SymbolTables) (module : String) : Option String :=
  tables.modules[module]?.bind ModuleScope.fileId

def hasModule (tables : SymbolTables) (module : String) : Bool :=
  (tables.moduleFile? module).isSome

def moduleOfFile? (tables : SymbolTables) (path : String) : Option String :=
  tables.fileModules[path]?

def hasFile (tables : SymbolTables) (path : String) : Bool :=
  (tables.moduleOfFile? path).isSome

/-- A top-level symbol of a module by its simple name. -/
def local? (tables : SymbolTables) (module name : String) : Option String :=
  tables.modules[module]?.bind fun scope => scope.symbols[name]?

/-- A top-level type of a module by its simple name. -/
def classIn? (tables : SymbolTables) (module name : String) : Option String :=
  tables.modules[module]?.bind fun scope => scope.classes[name]?

def binding? (tables : SymbolTables) (module localName : String) : Option ImportBinding :=
  tables.modules[module]?.bind fun scope => scope.bindings[localName]?

/-- A blueprint variable of a module. -/
def blueprint? (tables : SymbolTables) (module variableName : String) : Option String :=
  tables.modules[module]?.bind fun scope => scope.blueprints[variableName]?

/-- A method declared on a type itself. -/
def method? (tables : SymbolTables) (typeId name : String) : Option String :=
  tables.methods[typeId]?.bind fun methods => methods[name]?

def hasType (tables : SymbolTables) (typeId : String) : Bool :=
  (tables.methods[typeId]?).isSome

/-- The bases of a type in recorded order. -/
def basesOf (tables : SymbolTables) (typeId : String) : List String :=
  tables.bases.getD typeId []

/-- The only member of a set with exactly one. -/
def only? (candidates : Option TextSet) : Option String :=
  match candidates.map Std.ExtTreeSet.toList with
  | some [id] => some id
  | _ => none

/-- The one top-level symbol with a name across all modules, if no other shares it. -/
def uniqueGlobal? (tables : SymbolTables) (name : String) : Option String :=
  only? tables.global[name]?

/-- The one top-level type with a name across all modules, if no other shares it. -/
def uniqueGlobalType? (tables : SymbolTables) (name : String) : Option String :=
  only? tables.globalTypes[name]?

/-- The symbol a local name was imported for; a name that was changed on import counts less. -/
def boundSymbol? (tables : SymbolTables) (module localName : String) :
    Option (Confidence × String) :=
  match tables.binding? module localName with
  | some (.symbol source name renamed) =>
    (tables.local? source name).map fun id => (if renamed then .medium else .high, id)
  | _ => none

/-- The module a local name stands for: an imported module, or an imported submodule. -/
def boundModule? (tables : SymbolTables) (module localName : String) : Option String :=
  match tables.binding? module localName with
  | some (.module target) => some target
  | some (.symbol source name _) =>
    let candidate := Identifier.qualify source name
    if tables.hasModule candidate then some candidate else none
  | none => none

/-- The type a local name stands for: one declared here, or else one imported by name. -/
def typeNamed? (tables : SymbolTables) (module localName : String) : Option String :=
  match tables.classIn? module localName with
  | some id => some id
  | none =>
    match tables.binding? module localName with
    | some (.symbol source name _) => tables.classIn? source name
    | _ => none

/-- The number of recorded base entries of all types. -/
def baseCount (tables : SymbolTables) : Nat :=
  tables.bases.values.foldl (fun count bases => count + bases.length) 0

/-- Search a queue of types for a method. Types seen before are passed over, and the bases
of a type without the method join the end of the queue. -/
def searchHierarchy (tables : SymbolTables) (name : String) :
    Nat → List String → List String → Option String
  | 0, _, _ => none
  | _, _, [] => none
  | fuel + 1, seen, current :: queue =>
    if current ∈ seen then searchHierarchy tables name fuel seen queue
    else match tables.method? current name with
      | some id => some id
      | none => searchHierarchy tables name fuel (current :: seen) (queue ++ tables.basesOf current)

/-- The method of a type or of its nearest base that has one; bases at the same distance count
in the order in which they are reached. Every base entry enters the queue at most once, which
bounds the search. -/
def methodInHierarchy? (tables : SymbolTables) (typeId name : String) : Option String :=
  searchHierarchy tables name (tables.baseCount + 1) [] [typeId]

end SymbolTables

end SourceAtlas
