/- The source languages that are indexed, and the families that share symbol tables. -/
import SourceAtlas.Path

namespace SourceAtlas

inductive Family where
  | python
  | javaScript
  | swift
deriving DecidableEq, Repr, Inhabited

inductive Language where
  | python
  | javaScript
  | jsx
  | typeScript
  | tsx
  | swift
deriving DecidableEq, Repr, Inhabited

/-- Every family, in the order in which their files take part in each pass. -/
def Family.all : List Family := [.python, .javaScript, .swift]

/-- The place of a family in the order of all families. -/
def Family.rank : Family → Nat
  | .python => 0
  | .javaScript => 1
  | .swift => 2

/-- The name of a family in structured output. -/
def Family.tag : Family → String
  | .python => "python"
  | .javaScript => "java_script"
  | .swift => "swift"

namespace Language

/-- Every language, in the order used for listings. -/
def all : List Language := [.python, .javaScript, .jsx, .typeScript, .tsx, .swift]

def family : Language → Family
  | .python => .python
  | .javaScript | .jsx | .typeScript | .tsx => .javaScript
  | .swift => .swift

def name : Language → String
  | .python => "python"
  | .javaScript => "javascript"
  | .jsx => "jsx"
  | .typeScript => "typescript"
  | .tsx => "tsx"
  | .swift => "swift"

/-- The name of a language in structured output. -/
def tag : Language → String
  | .python => "python"
  | .javaScript => "java_script"
  | .jsx => "jsx"
  | .typeScript => "type_script"
  | .tsx => "tsx"
  | .swift => "swift"

/-- The name of a language in a diagnostic description. -/
def label : Language → String
  | .python => "Python"
  | .javaScript => "JavaScript"
  | .jsx => "Jsx"
  | .typeScript => "TypeScript"
  | .tsx => "Tsx"
  | .swift => "Swift"

/-- The language with a given name. -/
def ofName? (text : String) : Option Language :=
  all.find? fun language => language.name = text

/-- The language of a file extension; letter case of ASCII does not matter. -/
def ofExtension? (extension : String) : Option Language :=
  match Text.asciiLower extension with
  | "py" => some .python
  | "js" | "mjs" | "cjs" => some .javaScript
  | "jsx" => some .jsx
  | "ts" | "mts" | "cts" => some .typeScript
  | "tsx" => some .tsx
  | "swift" => some .swift
  | _ => none

/-- The language that a path's extension names. -/
def ofPath? (path : String) : Option Language :=
  (Path.extension? path).bind ofExtension?

end Language

end SourceAtlas
