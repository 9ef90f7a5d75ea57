/- Command line arguments: what they ask for, and how they are written. -/
import SourceAtlas.Json.Decode
import SourceAtlas.Text.Affix

namespace SourceAtlas.CommandLine

/-- What may be given for an argument. -/
inductive ValueKind where
  | text
  /-- A path, which is not empty. -/
  | path
  /-- A natural number of 64 bits, perhaps after a plus sign. -/
  | count
deriving DecidableEq, Repr

def count? (text : String) : Option Nat :=
  let digits := match text.toList with
    | '+' :: digits => digits
    | digits => digits
  (Json.natToken? (String.ofList digits)).filter (· < UInt64.size)

def ValueKind.accepts (kind : ValueKind) (value : String) : Bool :=
  match kind with
  | .text => true
  | .path => value != ""
  | .count => (count? value).isSome

structure OptionSpec where
  name : String
  letter : Option Char := none
  /-- What follows the option; nothing after a flag. -/
  value : Option ValueKind := none
  purpose : String := ""
  /-- The value when the option is not given. -/
  fallback : Option String := none
deriving DecidableEq, Repr

/-- An argument that is told by its place. -/
structure ArgumentSpec where
  name : String
  kind : ValueKind
  required : Bool := false
deriving DecidableEq, Repr

def sharedOptions : List OptionSpec :=
  [{ name := "verbose", letter := some 'v', purpose := "Log at debug level" },
   { name := "quiet", letter := some 'q', purpose := "Hide progress output" },
   { name := "log-file", value := some .path, purpose := "Also write logs to this file" }]

/-- The options and arguments that may be given at one place. -/
structure Grammar where
  /-- The options of this place alone. -/
  own : List OptionSpec := []
  arguments : List ArgumentSpec := []
  /-- Whether the version can be asked for. -/
  hasVersion : Bool := false

def Grammar.options (grammar : Grammar) : List OptionSpec := grammar.own ++ sharedOptions

/-- What stands before the command. -/
def Grammar.top : Grammar := { hasVersion := true }

/-- The directory that a command is about. -/
def pathArgument : ArgumentSpec := { name := "path", kind := .path }

/-- The commands, each with what may follow it. -/
def commands : List (String × Grammar) :=
  [("index",
    { own := [{ name := "force", letter := some 'f' }, { name := "commit", value := some .text },
        { name := "json", letter := some 'j' }]
      arguments := [pathArgument] }),
   ("graph",
    { own := [{ name := "scope", letter := some 's', value := some .text, fallback := some "full" },
        { name := "no-collapse" }]
      arguments := [pathArgument] }),
   ("arcs", { own := [{ name := "id", value := some .text }], arguments := [pathArgument] }),
   ("symbol",
    { own := [{ name := "path", letter := some 'p', value := some .path },
        { name := "section", value := some .text, fallback := some "full" },
        { name := "max-lines", value := some .count }]
      arguments := [{ name := "id", kind := .text, required := true }] }),
   ("toc", { arguments := [pathArgument] })]

/-- Why no command is run. -/
inductive Stop where
  /-- The arguments are not understood. -/
  | misuse
  | version
  /-- Help was asked for, perhaps about one command. -/
  | help (command : Option String)
deriving DecidableEq, Repr

/-- The options with their values and the other arguments, in order. -/
structure Given where
  options : List (String × String) := []
  arguments : List String := []
deriving DecidableEq, Repr

namespace Given

/-- Takes an option with its value. None may be given twice. -/
def option (given : Given) (spec : OptionSpec) (value : String) : Except Stop Given :=
  if given.options.any fun (name, _) => name = spec.name then .error .misuse
  else if spec.value.all fun kind => kind.accepts value then
    .ok { given with options := given.options ++ [(spec.name, value)] }
  else .error .misuse

/-- Takes an argument that is no option. -/
def argument (given : Given) (grammar : Grammar) (value : String) : Except Stop Given :=
  match grammar.arguments[given.arguments.length]? with
  | some spec =>
    if spec.kind.accepts value then .ok { given with arguments := given.arguments ++ [value] }
    else .error .misuse
  | none => .error .misuse

def has (given : Given) (name : String) : Bool := given.options.any fun option => option.1 = name

def value? (given : Given) (name : String) : Option String := given.options.lookup name

end Given

/-- What is known after some arguments: what was given, and an option whose value is missing. -/
abbrev Partway : Type := Given × Option OptionSpec

/-- An option in its long form. -/
def long (grammar : Grammar) (command : Option String) (given : Given) (body : String) :
    Except Stop Partway :=
  let (name, value) := match Text.cutFirst? '=' body with
    | some (name, value) => (name, some value)
    | none => (body, none)
  match grammar.options.find? fun spec => spec.name = name with
  | some spec =>
    match spec.value, value with
    | none, none => do return (← given.option spec "", none)
    | none, some _ => .error .misuse
    | some _, none =>
      if given.has name then .error .misuse else .ok (given, some spec)
    | some _, some value => do return (← given.option spec value, none)
  | none =>
    if value.isSome then .error .misuse
    else if name = "help" then .error (.help command)
    else if name = "version" && grammar.hasVersion then .error .version
    else .error .misuse

/-- Options in their short form, written together. The letters after an option with a value are
its value. -/
def cluster (grammar : Grammar) (command : Option String) : Given → List Char → Except Stop Partway
  | given, [] => .ok (given, none)
  | given, letter :: rest =>
    match grammar.options.find? fun spec => spec.letter = some letter with
    | some spec =>
      if spec.value.isNone then
        match given.option spec "" with
        | .ok given => cluster grammar command given rest
        | .error stop => .error stop
      else match rest with
        | [] => if given.has spec.name then .error .misuse else .ok (given, some spec)
        | '=' :: value => do return (← given.option spec (String.ofList value), none)
        | value => do return (← given.option spec (String.ofList value), none)
    | none =>
      if letter = 'h' then .error (.help command)
      else if letter = 'V' && grammar.hasVersion then .error .version
      else .error .misuse

/-- Whether an argument is written like an option. -/
def looksLikeOption (argument : String) : Bool :=
  Text.startsWith argument "-" && argument != "-"

/-- One option argument. -/
def readOption (grammar : Grammar) (command : Option String) (given : Given) (argument : String) :
    Except Stop Partway :=
  match argument.toList with
  | '-' :: '-' :: body => long grammar command given (String.ofList body)
  | _ :: letters => cluster grammar command given letters
  | [] => .error .misuse

/-- What a list of arguments gives, up to the name of a command if commands may stand here, with
the arguments from that name on. -/
def readAll (grammar : Grammar) (command : Option String) (names : List String) :
    Partway → List String → Except Stop (Given × List String)
  | (given, none), [] => .ok (given, [])
  | (_, some _), [] => .error .misuse
  | (given, some spec), argument :: rest =>
    if looksLikeOption argument then .error .misuse
    else match given.option spec argument with
      | .ok given => readAll grammar command names (given, none) rest
      | .error stop => .error stop
  | (given, none), argument :: rest =>
    if names.contains argument then .ok (given, argument :: rest)
    else if argument = "--" then do
      return (← rest.foldlM (fun given argument => given.argument grammar argument) given, [])
    else if looksLikeOption argument then
      match readOption grammar command given argument with
      | .ok partway => readAll grammar command names partway rest
      | .error stop => .error stop
    else match given.argument grammar argument with
      | .ok given => readAll grammar command names (given, none) rest
      | .error stop => .error stop

/-- A command with its options. -/
inductive Command where
  | index (path : Option String) (force : Bool) (commit : Option String) (json : Bool)
  | graph (path : Option String) (scope : String) (collapse : Bool)
  | arcs (path : Option String) (id : Option String)
  | symbol (id : String) (path : Option String) (part : String) (maxLines : Option Nat)
  | toc (path : Option String)
deriving DecidableEq, Repr

/-- A command with the path of a log file. -/
structure Request where
  command : Command
  logFile : Option String := none
deriving DecidableEq, Repr

/-- The command of a name. -/
def Command.of? (name : String) (given : Given) : Option Command :=
  let path := given.arguments.head?
  match name with
  | "index" => some (.index path (given.has "force") (given.value? "commit") (given.has "json"))
  | "graph" => some (.graph path ((given.value? "scope").getD "full") (!given.has "no-collapse"))
  | "arcs" => some (.arcs path (given.value? "id"))
  | "symbol" =>
    given.arguments.head?.map fun id =>
      .symbol id (given.value? "path") ((given.value? "section").getD "full")
        ((given.value? "max-lines").bind count?)
  | "toc" => some (.toc path)
  | _ => none

/-- The command whose help is asked for by name. -/
def helpAbout : List String → Stop
  | [] => .help none
  | [name] => if name = "help" || (commands.lookup name).isSome then .help (some name) else .misuse
  | _ => .misuse

/-- What a list of arguments asks for. Shared options may stand before or after the name of the
command, and the later ones count. -/
def parse (arguments : List String) : Except Stop Request := do
  let names := commands.map Prod.fst
  match ← readAll .top none ("help" :: names) ({}, none) arguments with
  | (shared, name :: rest) =>
    match commands.lookup name with
    | none => .error (helpAbout rest)
    | some grammar =>
      let (given, _) ← readAll grammar (some name) [] ({}, none) rest
      match Command.of? name given with
      | some command => return ⟨command, (given.value? "log-file").or (shared.value? "log-file")⟩
      | none => .error .misuse
  | (_, []) => .error .misuse

end SourceAtlas.CommandLine
