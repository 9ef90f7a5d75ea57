/- The calls that are recorded for functions and methods: in every language those of the call nodes
in the body of the definition, as many as there are and in document order. -/
import SourceAtlas.Proofs.Callees
import SourceAtlas.Proofs.Provenance

namespace SourceAtlas

/-- How a language records calls: the kinds of nodes that define functions and methods, the part of
such a node that counts as its body, and which calls single nodes stand for. -/
structure CallReader (α : Type) where
  kinds : List String
  bodyOf? : SyntaxTree → Option SyntaxTree
  Calls : SyntaxTree → α → Prop

namespace CallReader

variable {α : Type} {reader : CallReader α} {file : SourceFile} {root definition : SyntaxTree}

/-- The calls of a definition: those that its body yields, and none without a body. -/
def Reads (reader : CallReader α) (definition : SyntaxTree) (calls : List α) : Prop :=
  (reader.bodyOf? definition = none → calls = []) ∧
    ∀ body, reader.bodyOf? definition = some body → body.Yields reader.Calls calls

/-- A declaration with its calls is that of a definition in a tree. -/
def Records (reader : CallReader α) (file : SourceFile) (root : SyntaxTree)
    (declaration : Declaration) (calls : List α) : Prop :=
  ∃ definition, root.Occurs definition ∧ definition.kind ∈ reader.kinds ∧
    declaration.location = file.locate definition ∧ reader.Reads definition calls

theorem reads_of_body {callsIn : SyntaxTree → List α}
    (yields : ∀ body : SyntaxTree, body.Yields reader.Calls (callsIn body)) :
    reader.Reads definition (((reader.bodyOf? definition).map callsIn).getD []) := by
  constructor
  · intro missing
    rw [missing]
    rfl
  · intro body found
    rw [found]
    exact yields body

end CallReader

/-- Where only nodes of one kind are calls, to look at these alone is enough. -/
theorem SyntaxTree.yields_of_kind_iff {α : Type} {kind : String} {call? : SyntaxTree → Option α}
    {Calls : SyntaxTree → α → Prop}
    (reads : ∀ {tree call}, tree.kind = kind ∧ call? tree = some call ↔ Calls tree call)
    {body : SyntaxTree} {calls : List α} : body.Yields Calls calls ↔
      calls = (body.descendants.filter fun tree => tree.kind == kind).filterMap call? := by
  have calls_iff (tree : SyntaxTree) (call : α) :
      Calls tree call ↔ (if tree.kind == kind then call? tree else none) = some call := by
    rw [← reads, Option.ite_none_right_eq_some, beq_iff_eq]
  rw [yields_iff calls_iff, descendants_eq_preorder, List.filterMap_filter]

variable {file : SourceFile} {root : SyntaxTree}

/-- In a parsed file every function and every member of a type is read from the tree of the file. -/
theorem readIn_of_mem {α β : Type} {functions : List α} {types : List β} {methods : β → List α}
    {readIn : SyntaxTree → α → Prop} {typeReadIn : SyntaxTree → β → Prop} {function : α}
    (parsed : file.tree = some root) (member : function ∈ functions ++ types.flatMap methods)
    (top : ∀ function ∈ functions, ∃ root, file.tree = some root ∧ readIn root function)
    (inner : ∀ type ∈ types, ∃ root, file.tree = some root ∧ typeReadIn root type)
    (within : ∀ type, typeReadIn root type → ∀ method ∈ methods type, readIn root method) :
    readIn root function := by
  rcases List.mem_append.mp member with here | below
  · obtain ⟨_, same, read⟩ := top function here
    cases parsed.symm.trans same
    exact read
  · obtain ⟨type, listed, method⟩ := List.mem_flatMap.mp below
    obtain ⟨_, same, read⟩ := inner type listed
    cases parsed.symm.trans same
    exact within type read function method

namespace Python

def callReader (file : SourceFile) : CallReader Call where
  kinds := ["function_definition"]
  bodyOf? := fun definition => definition.child? "body"
  Calls := Calls file

/-- Functions at top level and methods. -/
def Outline.callables (outline : Outline) : List Function :=
  outline.functions ++ outline.classes.flatMap Class.methods

def Function.Recorded (file : SourceFile) (root : SyntaxTree) (function : Function) : Prop :=
  (callReader file).Records file root function.declaration function.calls

theorem yields_calls_iff {body : SyntaxTree} {calls : List Call} :
    body.Yields (Calls file) calls ↔ calls = callsIn file body :=
  SyntaxTree.yields_of_kind_iff call?_eq_some_iff

theorem Function.ReadIn.recorded {function : Function} (read : function.ReadIn file root) :
    function.Recorded file root := by
  obtain ⟨occurs, kind, declared⟩ := read
  obtain ⟨name, _, made⟩ := Option.bind_eq_some_iff.mp declared
  cases made
  exact ⟨_, occurs, List.mem_singleton.mpr kind, rfl,
    CallReader.reads_of_body fun body => yields_calls_iff.mpr rfl⟩

theorem callables_recorded (parsed : file.tree = some root) :
    ∀ function ∈ (Outline.ofFile file).callables, function.Recorded file root := by
  intro function member
  have read : function.ReadIn file root :=
    readIn_of_mem parsed member (fun _ => Outline.mem_functions) (fun _ => Outline.mem_classes)
      fun _ read => read.methods
  exact read.recorded

end Python

namespace JavaScript

/-- Where a function value is named, the whole value counts as the body, with its parameters. -/
def callReader (file : SourceFile) : CallReader Callee where
  kinds := functionKinds ++ valueKinds
  bodyOf? := fun definition => definition.child?
    (if definition.kind ∈ valueKinds then "value" else "body")
  Calls := Calls file

def Outline.callables (outline : Outline) : List Function :=
  outline.functions ++ outline.classes.flatMap Class.methods

def Function.Recorded (file : SourceFile) (root : SyntaxTree) (function : Function) : Prop :=
  (callReader file).Records file root function.declaration function.calls

theorem yields_calls_iff {body : SyntaxTree} {calls : List Callee} :
    body.Yields (Calls file) calls ↔ calls = callsIn file (some body) := by
  have reads (tree : SyntaxTree) (callee : Callee) :
      Calls file tree callee ↔ call? file tree = some callee :=
    call?_eq_some_iff.symm
  rw [SyntaxTree.yields_iff reads, callsIn, SyntaxTree.descendants_eq_preorder]

theorem callsIn_eq (body : Option SyntaxTree) :
    callsIn file body = (body.map fun body => callsIn file (some body)).getD [] := by
  cases body <;> rfl

/-- Whatever counts as the body of a definition, its calls are the recorded ones. -/
theorem recorded_of_bodyOf? {before : List SyntaxTree} {tree : SyntaxTree} {name : Option String}
    {declaration : Declaration} (occurs : root.Occurs tree)
    (kind : tree.kind ∈ functionKinds ++ valueKinds)
    (declared : declaration? file before tree name = some declaration) {body : Option SyntaxTree}
    (own : (callReader file).bodyOf? tree = body) :
    Function.Recorded file root ⟨declaration, callsIn file body⟩ := by
  obtain ⟨known, _, rfl⟩ := Option.map_eq_some_iff.mp declared
  refine ⟨tree, occurs, kind, rfl, ?_⟩
  rw [callsIn_eq, ← own]
  exact CallReader.reads_of_body fun body => yields_calls_iff.mpr rfl

theorem Function.ReadIn.recorded {function : Function} (read : function.ReadIn file root) :
    function.Recorded file root := by
  have apart : ∀ kind ∈ functionKinds, kind ∉ valueKinds := by decide
  cases read with
  | definition occurs kind declared =>
      apply recorded_of_bodyOf? occurs (List.mem_append_left _ kind) declared
      simp only [callReader, if_neg (apart _ kind)]
  | value occurs kind found declared =>
      apply recorded_of_bodyOf? occurs (List.mem_append_right _ kind) declared
      simp only [callReader, if_pos kind, found]

theorem callables_recorded (parsed : file.tree = some root) :
    ∀ function ∈ (Outline.ofFile file).callables, function.Recorded file root := by
  intro function member
  have read : function.ReadIn file root :=
    readIn_of_mem parsed member (fun _ => Outline.mem_functions) (fun _ => Outline.mem_classes)
      fun _ read => read.methods
  exact read.recorded

end JavaScript

namespace Swift

def callReader (file : SourceFile) : CallReader Callee where
  kinds := functionKinds
  bodyOf? := fun definition => definition.child? "body"
  Calls := Calls file

def Outline.callables (outline : Outline) : List Function :=
  outline.functions ++ outline.types.flatMap TypeDeclaration.methods

def Function.Recorded (file : SourceFile) (root : SyntaxTree) (function : Function) : Prop :=
  (callReader file).Records file root function.declaration function.calls

theorem yields_calls_iff {body : SyntaxTree} {calls : List Callee} :
    body.Yields (Calls file) calls ↔ calls = callsIn file body :=
  SyntaxTree.yields_of_kind_iff call?_eq_some_iff

theorem Function.ReadIn.recorded {function : Function} (read : function.ReadIn file root) :
    function.Recorded file root := by
  obtain ⟨occurs, kind⟩ := read
  exact ⟨_, occurs, kind, rfl, CallReader.reads_of_body fun body => yields_calls_iff.mpr rfl⟩

theorem callables_recorded (parsed : file.tree = some root) :
    ∀ function ∈ (Outline.ofFile file).callables, function.Recorded file root := by
  intro function member
  have read : function.ReadIn file root :=
    readIn_of_mem parsed member (fun _ => Outline.mem_functions) (fun _ => Outline.mem_types)
      fun _ read => read.methods
  exact read.recorded

end Swift

/-- The traversal with a stack is the recursive one, and what it meets are the nodes of the tree,
each place once and in document order. So the calls of a body are those of its call nodes, and every
function and method of a file has the calls of the call nodes in its body. -/
theorem callables_inDocumentOrder :
    (∀ tree : SyntaxTree, tree.descendants = tree.preorder ∧
      ∀ nodes, tree.Yields Eq nodes ↔ nodes = tree.descendants) ∧
    (∀ (file : SourceFile) (body : SyntaxTree),
      (∀ calls, body.Yields (Python.Calls file) calls ↔ calls = Python.callsIn file body) ∧
      (∀ calls, body.Yields (JavaScript.Calls file) calls ↔
        calls = JavaScript.callsIn file (some body)) ∧
      ∀ calls, body.Yields (Swift.Calls file) calls ↔ calls = Swift.callsIn file body) ∧
    ∀ (file : SourceFile) (root : SyntaxTree), file.tree = some root →
      (∀ function ∈ (Python.Outline.ofFile file).callables, function.Recorded file root) ∧
      (∀ function ∈ (JavaScript.Outline.ofFile file).callables, function.Recorded file root) ∧
      ∀ function ∈ (Swift.Outline.ofFile file).callables, function.Recorded file root := by
  refine ⟨?_, ?_, ?_⟩
  · intro tree
    have reads (node item : SyntaxTree) : node = item ↔ some node = some item :=
      Option.some_inj.symm
    refine ⟨tree.descendants_eq_preorder, ?_⟩
    intro nodes
    rw [SyntaxTree.yields_iff reads, tree.descendants_eq_preorder, List.filterMap_some]
  · intro file body
    exact ⟨fun _ => Python.yields_calls_iff, fun _ => JavaScript.yields_calls_iff,
      fun _ => Swift.yields_calls_iff⟩
  · intro file root parsed
    exact ⟨Python.callables_recorded parsed, JavaScript.callables_recorded parsed,
      Swift.callables_recorded parsed⟩

def repeatedCallsTree : SyntaxTree :=
  .plain "module" none 0 24 [.plain "function_definition" none 0 24
    [.plain "identifier" (some "name") 4 5 [], .plain "block" (some "body") 13 24
      [.plain "expression_statement" none 13 24 [.plain "call" none 13 24
        [.plain "identifier" (some "function") 13 14 [],
         .plain "argument_list" (some "arguments") 14 24
          [.plain "call" none 15 18
            [.plain "identifier" (some "function") 15 16 [],
             .plain "argument_list" (some "arguments") 16 18 []],
           .plain "call" none 20 23
            [.plain "identifier" (some "function") 20 21 [],
             .plain "argument_list" (some "arguments") 21 23 []]]]]]]]

/-- A function whose one statement has a call with two equal calls in it. -/
def repeatedCalls : SourceFile :=
  ⟨"a.py", .python, "def f():\n    g(h(), h())", some repeatedCallsTree⟩

theorem callables_inDocumentOrder_repeated :
    ∃ function ∈ (Python.Outline.ofFile repeatedCalls).callables,
      function.Recorded repeatedCalls repeatedCallsTree ∧
      function.calls.map Python.Call.callee = [.name "g", .name "h", .name "h"] := by
  have listed : ∃ function ∈ (Python.Outline.ofFile repeatedCalls).callables,
      function.calls.map Python.Call.callee = [.name "g", .name "h", .name "h"] := by decide +kernel
  obtain ⟨function, member, calls⟩ := listed
  exact ⟨function, member, (callables_inDocumentOrder.2.2 repeatedCalls repeatedCallsTree rfl).1
    function member, calls⟩

end SourceAtlas
