/-!
# Syntax trees

The answer of a parser: nodes with a kind, a place in the source, and flags. A node is *named*
when the grammar names its kind (a `call`) and anonymous when it is a literal token (a `(`); it
is *extra* when it may stand anywhere (a comment); *missing* when the parser inserted it, and an
*error* node when it holds text that fits no rule. `hasError` says that the subtree holds an
error or missing node.

`preorder` lists a tree in document order, and `nodeCount` is the length of that listing.
-/

namespace SyntaxGraph

/-- A place in the source: a row counted from zero and a column in bytes. -/
structure Point where
  row : Nat
  column : Nat
  deriving DecidableEq, Inhabited, Repr

/-- What a syntax node says of itself. -/
structure NodeLabel where
  kind : String
  isNamed : Bool
  isExtra : Bool
  isError : Bool
  isMissing : Bool
  hasError : Bool
  /-- the field of its parent that the node stands in -/
  field : Option String
  startByte : Nat
  endByte : Nat
  startPoint : Point
  endPoint : Point
  deriving DecidableEq, Inhabited, Repr

/-- A syntax node with its children in document order. -/
structure SyntaxNode where
  label : NodeLabel
  children : List SyntaxNode
  deriving Inhabited

namespace SyntaxNode

def kind (n : SyntaxNode) : String := n.label.kind

mutual

def nodeCount : SyntaxNode → Nat
  | ⟨_, children⟩ => 1 + nodeCountList children

def nodeCountList : List SyntaxNode → Nat
  | [] => 0
  | n :: rest => n.nodeCount + nodeCountList rest

end

mutual

/-- The nodes of the subtree in document order, a node before its children. -/
def preorder : SyntaxNode → List SyntaxNode
  | ⟨label, children⟩ => ⟨label, children⟩ :: preorderList children

def preorderList : List SyntaxNode → List SyntaxNode
  | [] => []
  | n :: rest => n.preorder ++ preorderList rest

end

theorem nodeCount_eq (n : SyntaxNode) : n.nodeCount = 1 + nodeCountList n.children := by
  cases n; rfl

theorem nodeCountList_append (a b : List SyntaxNode) :
    nodeCountList (a ++ b) = nodeCountList a + nodeCountList b := by
  induction a with
  | nil => simp [nodeCountList]
  | cons n rest ih => simp [nodeCountList, ih, Nat.add_assoc]

/-- The number of named nodes in the subtree. -/
def namedCount (n : SyntaxNode) : Nat := n.preorder.countP (·.label.isNamed)

end SyntaxNode

end SyntaxGraph
