/- Which nodes are calls, and what they call. In every language a call is told by the kind of its
node and by the child that stands for what is called. The forms are named here one by one, and what
an outline reads off a node is what they say, no more and no less. -/
import SourceAtlas.Outline.JavaScript
import SourceAtlas.Outline.Python
import SourceAtlas.Outline.Swift

namespace SourceAtlas

/-- What holds of a tree if it holds of the children in its fields holds of every tree. -/
@[elab_as_elim]
theorem SyntaxTree.fieldInduction {motive : SyntaxTree → Prop}
    (step : ∀ tree, (∀ field child, tree.child? field = some child → motive child) → motive tree)
    (tree : SyntaxTree) : motive tree := by
  apply step
  intro field child found
  have smaller : sizeOf child < sizeOf tree := by
    obtain ⟨label, children⟩ := tree
    have listed : sizeOf child < sizeOf children :=
      List.sizeOf_lt_of_mem (List.mem_of_find?_eq_some found)
    rw [SyntaxTree.node.sizeOf_spec]
    omega
  exact fieldInduction step child
termination_by sizeOf tree

/-- To look through the children for one in a field and to read it is to read the child in that
field. -/
theorem SyntaxTree.scan_eq_bind {α : Type} {scan : List SyntaxTree → Option α}
    {read : SyntaxTree → Option α} {field : String} (nil : scan [] = none)
    (cons : ∀ tree rest, scan (tree :: rest) = if tree.inField field then read tree else scan rest)
    (tree : SyntaxTree) : scan tree.children = (tree.child? field).bind read := by
  rw [child?]
  induction tree.children with
  | nil => exact nil
  | cons tree rest ih =>
      rw [cons, List.find?_cons]
      cases tree.inField field with
      | false => exact ih
      | true => rfl

/-- The first child in a field has a given text, which is not empty. -/
def SourceFile.HasText (file : SourceFile) (tree : SyntaxTree) (field text : String) : Prop :=
  ∃ child, tree.child? field = some child ∧ file.textOf child = text ∧ text ≠ ""

theorem SourceFile.fieldText?_eq_some_iff {file : SourceFile} {tree : SyntaxTree}
    {field text : String} :
    file.fieldText? tree field = some text ↔ file.HasText tree field text := by
  rw [fieldText?, Option.filter_eq_some_iff, Option.map_eq_some_iff, decide_eq_true_iff]
  constructor
  · rintro ⟨⟨child, found, same⟩, filled⟩
    exact ⟨child, found, same, filled⟩
  · rintro ⟨child, found, same, filled⟩
    exact ⟨⟨child, found, same⟩, filled⟩

namespace Python

variable (file : SourceFile)

/-- A dotted name with its parts: a plain name, names that the parser keeps together, or a member of
a dotted name. -/
inductive Dotted : SyntaxTree → List String → Prop
  | name {tree} : tree.kind = "identifier" → Dotted tree [file.textOf tree]
  | names {tree} : tree.kind = "dotted_name" → Dotted tree (Text.split '.' (file.textOf tree))
  | member {tree object parts name} : tree.kind = "attribute" → tree.child? "object" = some object →
      Dotted object parts → file.HasText tree "attribute" name → Dotted tree (parts ++ [name])

/-- What is called: a plain name, or a member, whose receiver is kept if it is a dotted name. -/
inductive Names : SyntaxTree → Callee → Prop
  | name {tree} : tree.kind = "identifier" → Names tree (.name (file.textOf tree))
  | member {tree name receiver} : tree.kind = "attribute" → file.HasText tree "attribute" name →
      (∀ parts, receiver = some parts ↔ ∃ object,
        tree.child? "object" = some object ∧ Dotted file object parts) →
      Names tree (.member receiver name)

/-- A call node calls what stands in its function field; its first argument is kept if it is a plain
name. -/
inductive Calls : SyntaxTree → Call → Prop
  | call {tree function callee first} :
      tree.kind = "call" → tree.child? "function" = some function →
      Names file function callee →
      (∀ name, first = some name ↔ ∃ arguments argument, tree.child? "arguments" = some arguments ∧
        arguments.namedChildren.head? = some argument ∧ argument.kind = "identifier" ∧
        file.textOf argument = name) →
      Calls tree ⟨callee, first⟩

variable {file} {tree : SyntaxTree}

theorem dottedObject_eq (label : SyntaxLabel) (children : List SyntaxTree) :
    dottedObject file children =
      ((SyntaxTree.node label children).child? "object").bind (dottedParts file) :=
  SyntaxTree.scan_eq_bind rfl (fun _ _ => rfl) (.node label children)

theorem Dotted.of_dottedParts {parts : List String} (read : dottedParts file tree = some parts) :
    Dotted file tree parts := by
  induction tree using SyntaxTree.fieldInduction generalizing parts with
  | step tree ih =>
      obtain ⟨label, children⟩ := tree
      unfold dottedParts at read
      split at read
      · next kind =>
          cases read
          exact .name kind
      · next kind =>
          rw [dottedObject_eq label] at read
          obtain ⟨before, inside, read⟩ := Option.bind_eq_some_iff.mp read
          obtain ⟨object, found, inner⟩ := Option.bind_eq_some_iff.mp inside
          obtain ⟨name, named, made⟩ := Option.bind_eq_some_iff.mp read
          cases made
          exact .member kind found (ih "object" object found inner)
            (SourceFile.fieldText?_eq_some_iff.mp named)
      · next kind =>
          obtain rfl := Option.some.inj read
          exact .names kind
      · cases read

theorem Dotted.dottedParts_eq {parts : List String} (dotted : Dotted file tree parts) :
    dottedParts file tree = some parts := by
  induction dotted with
  | @name tree kind =>
      obtain ⟨label, children⟩ := tree
      simp only [dottedParts, show label.kind = "identifier" from kind]
  | @names tree kind =>
      obtain ⟨label, children⟩ := tree
      simp only [dottedParts, show label.kind = "dotted_name" from kind]
  | @member tree object parts name kind found inner named ih =>
      obtain ⟨label, children⟩ := tree
      simp only [dottedParts, show label.kind = "attribute" from kind, dottedObject_eq label, found,
        Option.bind_some, ih, SourceFile.fieldText?_eq_some_iff.mpr named]
      rfl

theorem dottedParts_eq_some_iff {parts : List String} :
    dottedParts file tree = some parts ↔ Dotted file tree parts :=
  ⟨Dotted.of_dottedParts, Dotted.dottedParts_eq⟩

theorem callee?_eq_some_iff {callee : Callee} :
    callee? file tree = some callee ↔ Names file tree callee := by
  have receiver_iff (parts : List String) :
      (tree.child? "object").bind (dottedParts file) = some parts ↔
      ∃ object, tree.child? "object" = some object ∧ Dotted file object parts := by
    simp only [Option.bind_eq_some_iff, dottedParts_eq_some_iff]
  constructor
  · intro read
    unfold callee? at read
    split at read
    · next kind =>
        cases read
        exact .name kind
    · next kind =>
        obtain ⟨name, named, rfl⟩ := Option.map_eq_some_iff.mp read
        exact .member kind (SourceFile.fieldText?_eq_some_iff.mp named) receiver_iff
    · cases read
  · intro names
    cases names with
    | name kind => simp only [callee?, kind]
    | @member name receiver kind named known =>
        have same : (tree.child? "object").bind (dottedParts file) = receiver :=
          Option.ext fun parts => (receiver_iff parts).trans (known parts).symm
        simp only [callee?, kind, SourceFile.fieldText?_eq_some_iff.mpr named, same,
          Option.map_some]

theorem call?_eq_some_iff {call : Call} :
    tree.kind = "call" ∧ call? file tree = some call ↔ Calls file tree call := by
  have first_iff (name : String) : ((((tree.child? "arguments").bind fun arguments =>
      arguments.namedChildren.head?).filter fun arg => arg.kind == "identifier").map file.textOf) =
        some name ↔
      ∃ arguments argument, tree.child? "arguments" = some arguments ∧
        arguments.namedChildren.head? = some argument ∧ argument.kind = "identifier" ∧
        file.textOf argument = name := by
    simp only [Option.map_eq_some_iff, Option.filter_eq_some_iff, Option.bind_eq_some_iff,
      beq_iff_eq]
    constructor
    · rintro ⟨argument, ⟨⟨arguments, found, first⟩, kind⟩, text⟩
      exact ⟨arguments, argument, found, first, kind, text⟩
    · rintro ⟨arguments, argument, found, first, kind, text⟩
      exact ⟨argument, ⟨⟨arguments, found, first⟩, kind⟩, text⟩
  constructor
  · rintro ⟨kind, read⟩
    obtain ⟨function, found, read⟩ := Option.bind_eq_some_iff.mp read
    obtain ⟨callee, named, made⟩ := Option.bind_eq_some_iff.mp read
    cases made
    exact .call kind found (callee?_eq_some_iff.mp named) first_iff
  · rintro ⟨kind, found, names, known⟩
    refine ⟨kind, ?_⟩
    have same := Option.ext fun name => (first_iff name).trans (known name).symm
    simp only [call?, found, Option.bind_eq_bind, Option.bind_some,
      callee?_eq_some_iff.mpr names, same]
    rfl

end Python

namespace JavaScript

variable (file : SourceFile)

/-- A chain of names with its parts: a name, or a member of a chain of names. -/
inductive Chain : SyntaxTree → List String → Prop
  | name {tree} : tree.kind ∈ ["identifier", "property_identifier", "private_property_identifier"] →
      Chain tree [file.textOf tree]
  | member {tree object parts name} :
      tree.kind = "member_expression" → tree.child? "object" = some object →
      Chain object parts → file.HasText tree "property" name → Chain tree (parts ++ [name])

/-- The receiver of a member is what stands in its object field. -/
inductive Receives : SyntaxTree → Receiver → Prop
  | this {tree object} : tree.child? "object" = some object → object.kind = "this" →
      Receives tree .this
  | super {tree object} : tree.child? "object" = some object → object.kind = "super" →
      Receives tree .super
  | path {tree object parts} : tree.child? "object" = some object → Chain file object parts →
      Receives tree (.path parts)
  | other {tree} : (∀ object, tree.child? "object" = some object →
      object.kind ≠ "this" ∧ object.kind ≠ "super" ∧ ∀ parts, ¬Chain file object parts) →
        Receives tree .other

/-- What is called or constructed: a name of some kind, or a member of a receiver. -/
inductive Names : SyntaxTree → Callee → Prop
  | name {tree} :
      tree.kind ∈ ["identifier", "property_identifier", "private_property_identifier",
        "type_identifier"] →
      Names tree (.name (file.textOf tree))
  | member {tree receiver name} :
      tree.kind = "member_expression" → file.HasText tree "property" name →
      Receives file tree receiver → Names tree (.member receiver name)

/-- A call calls what stands in its function field, and a construction what stands in its
constructor field. -/
inductive Calls : SyntaxTree → Callee → Prop
  | call {tree function callee} :
      tree.kind = "call_expression" → tree.child? "function" = some function →
      Names file function callee → Calls tree callee
  | construction {tree constructor callee} : tree.kind = "new_expression" →
      tree.child? "constructor" = some constructor → Names file constructor callee →
        Calls tree callee

variable {file} {tree : SyntaxTree}

theorem isIdentifier_iff :
    isIdentifier tree = true ↔
      tree.kind ∈ ["identifier", "property_identifier", "private_property_identifier"] := by
  rw [isIdentifier, decide_eq_true_iff]

theorem valueObject_eq (label : SyntaxLabel) (children : List SyntaxTree) :
    valueObject file children = ((SyntaxTree.node label children).child? "object").bind
      (valuePath file) :=
  SyntaxTree.scan_eq_bind rfl (fun _ _ => rfl) (.node label children)

theorem Chain.of_valuePath {parts : List String} (read : valuePath file tree = some parts) :
    Chain file tree parts := by
  induction tree using SyntaxTree.fieldInduction generalizing parts with
  | step tree ih =>
      obtain ⟨label, children⟩ := tree
      unfold valuePath at read
      split at read
      · next plain =>
          cases read
          exact .name (isIdentifier_iff.mp plain)
      · split at read
        · next kind =>
            rw [valueObject_eq label] at read
            obtain ⟨before, inside, read⟩ := Option.bind_eq_some_iff.mp read
            obtain ⟨object, found, inner⟩ := Option.bind_eq_some_iff.mp inside
            obtain ⟨name, named, made⟩ := Option.bind_eq_some_iff.mp read
            cases made
            exact .member kind found (ih "object" object found inner)
              (SourceFile.fieldText?_eq_some_iff.mp named)
        · cases read

theorem Chain.valuePath_eq {parts : List String} (chain : Chain file tree parts) :
    valuePath file tree = some parts := by
  induction chain with
  | @name tree kind =>
      obtain ⟨label, children⟩ := tree
      rw [valuePath, if_pos (isIdentifier_iff.mpr kind)]
  | @member tree object parts name kind found inner named ih =>
      obtain ⟨label, children⟩ := tree
      have complex : ¬isIdentifier (.node label children) = true := by
        rw [isIdentifier_iff, kind]
        decide
      rw [valuePath, if_neg complex, if_pos (show label.kind = _ from kind), valueObject_eq label]
      simp only [found, Option.bind_some, ih, SourceFile.fieldText?_eq_some_iff.mpr named]
      rfl

theorem valuePath_eq_some_iff {parts : List String} :
    valuePath file tree = some parts ↔ Chain file tree parts :=
  ⟨Chain.of_valuePath, Chain.valuePath_eq⟩

theorem Chain.kind_mem {parts : List String} (chain : Chain file tree parts) :
    tree.kind ∈ ["identifier", "property_identifier", "private_property_identifier",
      "member_expression"] := by
  cases chain with
  | name kind => exact List.mem_append_left ["member_expression"] kind
  | member kind =>
      rw [kind]
      decide

theorem receives_receiver : Receives file tree (receiver file (tree.child? "object")) := by
  cases found : tree.child? "object" with
  | none =>
      refine .other ?_
      intro object known
      cases found.symm.trans known
  | some object =>
      simp only [receiver]
      split
      · next kind => exact .this found kind
      · next kind => exact .super found kind
      · next this super =>
          cases read : valuePath file object with
          | some parts => exact .path found (valuePath_eq_some_iff.mp read)
          | none =>
              refine .other ?_
              intro other known
              cases found.symm.trans known
              refine ⟨this, super, ?_⟩
              intro parts chain
              cases read.symm.trans chain.valuePath_eq

theorem Receives.receiver_eq {known : Receiver} (receives : Receives file tree known) :
    receiver file (tree.child? "object") = known := by
  cases receives with
  | this found kind => simp only [receiver, found, kind]
  | super found kind => simp only [receiver, found, kind]
  | @path object parts found chain =>
      have this : object.kind ≠ "this" := fun kind => by simpa [kind] using chain.kind_mem
      have super : object.kind ≠ "super" := fun kind => by simpa [kind] using chain.kind_mem
      simp only [receiver, found, chain.valuePath_eq, Option.map_some, Option.getD_some]
  | other strange =>
      cases found : tree.child? "object" with
      | none => rfl
      | some object =>
          obtain ⟨this, super, complex⟩ := strange object found
          cases read : valuePath file object with
          | none => simp only [receiver, read, Option.map_none, Option.getD_none]
          | some parts => exact absurd (valuePath_eq_some_iff.mp read) (complex parts)

theorem callee?_eq_some_iff {callee : Callee} :
    callee? file tree = some callee ↔ Names file tree callee := by
  have name_iff : isIdentifier tree = true ∨ tree.kind = "type_identifier" ↔
      tree.kind ∈ ["identifier", "property_identifier", "private_property_identifier",
        "type_identifier"] := by
    rw [isIdentifier_iff, ← List.mem_singleton, ← List.mem_append]
    rfl
  constructor
  · intro read
    unfold callee? at read
    split at read
    · next plain =>
        cases read
        exact .name (name_iff.mp plain)
    · split at read
      · next kind =>
          obtain ⟨name, named, rfl⟩ := Option.map_eq_some_iff.mp read
          exact .member kind (SourceFile.fieldText?_eq_some_iff.mp named) receives_receiver
      · cases read
  · intro names
    cases names with
    | name kind => rw [callee?, if_pos (name_iff.mpr kind)]
    | member kind named receives =>
        have complex : ¬(isIdentifier tree = true ∨ tree.kind = "type_identifier") := by
          rw [name_iff, kind]
          decide
        rw [callee?, if_neg complex, if_pos kind, SourceFile.fieldText?_eq_some_iff.mpr named,
          Option.map_some, receives.receiver_eq]

theorem call?_eq_some_iff {callee : Callee} :
    call? file tree = some callee ↔ Calls file tree callee := by
  constructor
  · intro read
    unfold call? at read
    split at read
    · next kind =>
        obtain ⟨function, found, named⟩ := Option.bind_eq_some_iff.mp read
        exact .call kind found (callee?_eq_some_iff.mp named)
    · next kind =>
        obtain ⟨constructor, found, named⟩ := Option.bind_eq_some_iff.mp read
        exact .construction kind found (callee?_eq_some_iff.mp named)
    · cases read
  · intro calls
    cases calls with
    | call kind found names =>
        simp only [call?, kind, found, Option.bind_some, callee?_eq_some_iff.mpr names]
    | construction kind found names =>
        simp only [call?, kind, found, Option.bind_some, callee?_eq_some_iff.mpr names]

end JavaScript

namespace Swift

variable (file : SourceFile)

/-- The receiver of a member is what stands in its target field. -/
inductive Receives : SyntaxTree → Receiver → Prop
  | self {tree target} : tree.child? "target" = some target → target.kind = "self_expression" →
      Receives tree .self
  | super {tree target} : tree.child? "target" = some target → target.kind = "super_expression" →
      Receives tree .super
  | name {tree target} : tree.child? "target" = some target →
      target.kind ∈ ["simple_identifier", "type_identifier", "user_type"] →
      Receives tree (.name (file.textOf target))
  | other {tree} : (∀ target, tree.child? "target" = some target → target.kind ∉ ["self_expression",
      "super_expression", "simple_identifier", "type_identifier", "user_type"]) →
        Receives tree .other

/-- The node with the name of a member: the one in the field for it, or else the first plain
name. -/
inductive SuffixName : SyntaxTree → SyntaxTree → Prop
  | field {suffix name} : suffix.child? "suffix" = some name → SuffixName suffix name
  | first {suffix name} : suffix.child? "suffix" = none →
      (suffix.namedChildren.find? fun part => part.kind == "simple_identifier") = some name →
      SuffixName suffix name

/-- What is called: a plain name, or a member of a receiver. -/
inductive Names : SyntaxTree → Callee → Prop
  | name {tree} : tree.kind = "simple_identifier" → Names tree (.name (file.textOf tree))
  | member {tree suffix name receiver} :
      tree.kind = "navigation_expression" → tree.child? "suffix" = some suffix →
      SuffixName suffix name → Receives file tree receiver →
        Names tree (.member receiver (file.textOf name))

/-- A call calls its first part. -/
inductive Calls : SyntaxTree → Callee → Prop
  | call {tree function callee} :
      tree.kind = "call_expression" → tree.namedChildren.head? = some function →
      Names file function callee → Calls tree callee

variable {file} {tree : SyntaxTree}

theorem receiver_eq_iff {known : Receiver} :
    receiver file (tree.child? "target") = known ↔ Receives file tree known := by
  constructor
  · rintro rfl
    cases found : tree.child? "target" with
    | none =>
        refine .other ?_
        intro target known
        cases found.symm.trans known
    | some target =>
        simp only [receiver]
        split
        · next kind => exact .self found kind
        · next kind => exact .super found kind
        · next kind => exact .name found (by rw [kind]; decide)
        · next kind => exact .name found (by rw [kind]; decide)
        · next kind => exact .name found (by rw [kind]; decide)
        · next self super simple type user =>
            refine .other ?_
            intro other known
            cases found.symm.trans known
            simp only [List.mem_cons, List.not_mem_nil, or_false, not_or]
            exact ⟨self, super, simple, type, user⟩
  · intro receives
    cases receives with
    | self found kind => simp only [receiver, found, kind]
    | super found kind => simp only [receiver, found, kind]
    | name found kind =>
        simp only [List.mem_cons, List.not_mem_nil, or_false] at kind
        rcases kind with kind | kind | kind <;> simp only [receiver, found, kind]
    | other strange =>
        cases found : tree.child? "target" with
        | none => rfl
        | some target =>
            have complex := strange target found
            simp only [List.mem_cons, List.not_mem_nil, or_false, not_or] at complex
            obtain ⟨self, super, simple, type, user⟩ := complex
            simp only [receiver]

theorem suffixName_iff {suffix name : SyntaxTree} : (suffix.child? "suffix").or
    (suffix.namedChildren.find? fun part => part.kind == "simple_identifier") = some name ↔
      SuffixName suffix name := by
  constructor
  · intro read
    cases found : suffix.child? "suffix" with
    | some child =>
        rw [found] at read
        cases read
        exact .field found
    | none =>
        rw [found, Option.none_or] at read
        exact .first found read
  · intro named
    cases named with
    | field found => rw [found, Option.some_or]
    | first missing found => rw [missing, Option.none_or, found]

theorem call?_eq_some_iff {callee : Callee} :
    tree.kind = "call_expression" ∧ call? file tree = some callee ↔ Calls file tree callee := by
  constructor
  · rintro ⟨kind, read⟩
    obtain ⟨function, found, read⟩ := Option.bind_eq_some_iff.mp read
    refine .call kind found ?_
    split at read
    · next kind =>
        cases read
        exact .name kind
    · next kind =>
        obtain ⟨suffix, inner, read⟩ := Option.bind_eq_some_iff.mp read
        obtain ⟨name, named, made⟩ := Option.bind_eq_some_iff.mp read
        cases made
        exact .member kind inner (suffixName_iff.mp named) (receiver_eq_iff.mp rfl)
    · cases read
  · rintro ⟨kind, found, names⟩
    refine ⟨kind, ?_⟩
    cases names with
    | name kind => simp only [call?, found, Option.bind_eq_bind, Option.bind_some, kind]
    | member kind inner named receives =>
        simp only [call?, found, Option.bind_eq_bind, Option.bind_some, kind, inner,
          suffixName_iff.mpr named, receiver_eq_iff.mpr receives]

end Swift

end SourceAtlas
