/- What is told about commands, options and arguments when help is asked for. -/
import SourceAtlas.CommandLine.Arguments

namespace SourceAtlas.CommandLine

/-- A text with blanks after it up to a number of characters. -/
def padded (width : Nat) (text : String) : String :=
  text ++ String.ofList (List.replicate (width - text.length) ' ')

/-- The commands with what they do. -/
def purposes : List (String × String) :=
  [("index", "Build (or reuse) the index for a repository"),
   ("graph", "Print the symbol graph as JSON"),
   ("arcs", "Print request story arcs as JSON"),
   ("symbol", "Print the source snippet for one symbol"),
   ("toc", "Print the table of contents"),
   ("help", "Print this message or the help of the given subcommand(s)")]

/-- The name that stands for a value. -/
def valueName (name : String) : String := Text.asciiUpper (Text.replaceChar '-' '_' name)

namespace OptionSpec

/-- An option as it is written, with its letter before its name. -/
def label (spec : OptionSpec) : String :=
  let letter := match spec.letter with
    | some letter => "-" ++ letter.toString ++ ", "
    | none => "    "
  let value := if spec.value.isSome then " <" ++ valueName spec.name ++ ">" else ""
  letter ++ "--" ++ spec.name ++ value

def note (spec : OptionSpec) : String :=
  let fallback := spec.fallback.map fun value => "[default: " ++ value ++ "]"
  Text.join " " ([spec.purpose].filter (· ≠ "") ++ fallback.toList)

/-- Options with a letter are listed by it, others by their name. -/
def key (spec : OptionSpec) : String :=
  match spec.letter with
  | some letter => letter.toLower.toString ++ (if letter.isLower then "0" else "1")
  | none => spec.name

end OptionSpec

def ArgumentSpec.label (spec : ArgumentSpec) : String :=
  if spec.required then "<" ++ valueName spec.name ++ ">" else "[" ++ valueName spec.name ++ "]"

/-- The order of options that each have a place of their own in a list. -/
def placeOrder (first second : OptionSpec × Nat) : Ordering :=
  (compare first.2 second.2).then (compare first.1.key second.1.key)

/-- The options of a grammar as they are listed. Its own options and the shared ones alternate,
and what can be asked for at every place comes last. -/
def Grammar.listed (grammar : Grammar) : List OptionSpec :=
  let placed := grammar.own.zipIdx ++ sharedOptions.zipIdx
  let help : OptionSpec := { name := "help", letter := some 'h', purpose := "Print help" }
  let version : OptionSpec := { name := "version", letter := some 'V', purpose := "Print version" }
  (placed.mergeSort fun first second => (placeOrder first second).isLE).map Prod.fst
    ++ help :: (if grammar.hasVersion then [version] else [])

/-- A help text: a purpose, how something is used, and lists of names with notes. -/
structure HelpPage where
  purpose : String
  usage : String
  lists : List (String × List (String × String))
deriving DecidableEq, Repr

namespace HelpPage

/-- A list with its notes in one column. -/
def listLines (title : String) (entries : List (String × String)) : List String :=
  let width := entries.foldl (fun width entry => max width entry.1.length) 0
  "" :: (title ++ ":") :: entries.map fun (name, note) => "  " ++ padded width name ++ "  " ++ note

def text (page : HelpPage) : String :=
  Text.join "\n"
    ([page.purpose, "", "Usage: gitreader " ++ page.usage]
      ++ page.lists.flatMap (fun (title, entries) => listLines title entries) ++ [""])

def optionList (grammar : Grammar) : String × List (String × String) :=
  ("Options", grammar.listed.map fun spec => (spec.label, spec.note))

/-- The page about the program. -/
def ofProgram : HelpPage :=
  { purpose := "Symbol graph and request story arcs for Python, JS/TS and Swift repositories"
    usage := "[OPTIONS] <COMMAND>"
    lists := [("Commands", purposes), optionList .top] }

/-- The page about the command that shows help. -/
def ofHelp : HelpPage :=
  { purpose := (purposes.lookup "help").getD ""
    usage := "help [COMMAND]..."
    lists := [("Arguments", [("[COMMAND]...", "Print help for the subcommand(s)")])] }

def ofCommand (name : String) (grammar : Grammar) : HelpPage :=
  let arguments := grammar.arguments.map ArgumentSpec.label
  { purpose := (purposes.lookup name).getD ""
    usage := Text.join " " (name :: "[OPTIONS]" :: arguments)
    lists := [("Arguments", arguments.map fun label => (label, "")), optionList grammar] }

end HelpPage

/-- The help about the program or about one of its commands. -/
def helpPage : Option String → HelpPage
  | none => .ofProgram
  | some name =>
    match commands.lookup name with
    | some grammar => .ofCommand name grammar
    | none => .ofHelp

end SourceAtlas.CommandLine
