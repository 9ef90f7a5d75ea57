/- Concrete syntax trees as a parser delivers them, and the ways through them. -/

namespace SourceAtlas

/-- What a parser records of one node. Offsets count bytes of the source text.
`hasError` says that something in the subtree is faulty; it may be set without a visible fault. -/
structure SyntaxLabel where
  kind : String
  field : Option String
  isNamed : Bool
  isMissing : Bool
  isError : Bool
  hasError : Bool
  start : Nat
  stop : Nat
deriving DecidableEq, Repr, Inhabited

/-- A node with its direct children, named and anonymous, in document order. -/
inductive SyntaxTree where
  | node (label : SyntaxLabel) (children : List SyntaxTree)
deriving Repr

namespace SyntaxTree

instance : Inhabited SyntaxTree := ⟨.node default []⟩

/-- A named node without a fault. -/
def plain (kind : String) (field : Option String) (start stop : Nat) (children : List SyntaxTree) :
    SyntaxTree :=
  .node ⟨kind, field, true, false, false, false, start, stop⟩ children

def label : SyntaxTree → SyntaxLabel
  | .node label _ => label

def children : SyntaxTree → List SyntaxTree
  | .node _ children => children

def kind (tree : SyntaxTree) : String := tree.label.kind

/-- Whether a node stands in a given field of its parent. -/
def inField (field : String) (tree : SyntaxTree) : Bool := tree.label.field == some field

def namedChildren (tree : SyntaxTree) : List SyntaxTree :=
  tree.children.filter fun child => child.label.isNamed

/-- The first child in a field. -/
def child? (tree : SyntaxTree) (field : String) : Option SyntaxTree :=
  tree.children.find? (inField field)

/-- Every child in a field. -/
def childrenIn (tree : SyntaxTree) (field : String) : List SyntaxTree :=
  tree.children.filter (inField field)

/-- A node together with its earlier siblings, the nearest first. -/
structure Placed where
  before : List SyntaxTree
  tree : SyntaxTree

/-- Siblings, each with those before it; `before` are the ones already passed. -/
def place (before : List SyntaxTree) : List SyntaxTree → List Placed
  | [] => []
  | tree :: rest => ⟨before, tree⟩ :: place (tree :: before) rest

/-- The named children, each with all its earlier siblings. -/
def placedChildren (tree : SyntaxTree) : List Placed :=
  (place [] tree.children).filter fun placed => placed.tree.label.isNamed

mutual

/-- A node and all its descendants in document order. -/
def preorder : SyntaxTree → List SyntaxTree
  | .node label children => .node label children :: preorderAll children

/-- The nodes of several trees in document order. -/
def preorderAll : List SyntaxTree → List SyntaxTree
  | [] => []
  | tree :: rest => preorder tree ++ preorderAll rest

end

mutual

/-- The number of nodes of a tree. -/
def size : SyntaxTree → Nat
  | .node _ children => 1 + sizeAll children

/-- The number of nodes of several trees. -/
def sizeAll : List SyntaxTree → Nat
  | [] => 0
  | tree :: rest => size tree + sizeAll rest

end

@[simp] theorem sizeAll_append (first second : List SyntaxTree) :
    sizeAll (first ++ second) = sizeAll first + sizeAll second := by
  induction first with
  | nil => simp [sizeAll]
  | cons tree rest ih => simp [sizeAll, ih, Nat.add_assoc]

/-- The nodes met when the top of a stack of trees is visited and replaced by its children,
until the stack is empty. -/
def visit : List SyntaxTree → List SyntaxTree
  | [] => []
  | .node label children :: rest => .node label children :: visit (children ++ rest)
termination_by stack => sizeAll stack
decreasing_by
  rw [sizeAll_append, sizeAll, size]
  omega

/-- A node and all its descendants, by a traversal with an explicit stack. -/
def descendants (tree : SyntaxTree) : List SyntaxTree := visit [tree]

/-- A node that stands for text the grammar could not place, or for text that is missing. -/
def isFault (tree : SyntaxTree) : Bool := tree.label.isError || tree.label.isMissing

mutual

/-- The first fault in document order, looking only where a fault is announced. -/
def firstFault? : SyntaxTree → Option SyntaxTree
  | .node label children =>
    if label.isError || label.isMissing then some (.node label children)
    else if label.hasError then firstFaultIn? children
    else none

/-- The first fault among several trees in document order. -/
def firstFaultIn? : List SyntaxTree → Option SyntaxTree
  | [] => none
  | tree :: rest => (firstFault? tree).or (firstFaultIn? rest)

end

end SyntaxTree

end SourceAtlas
