import SyntaxGraph.Scalar

/-!
# Numbered trees

The tree that is shown: every node carries a number, its kind as its name, its attributes, and
its children with the fields that hold them. A scalar that stands where a node might is a *value
leaf*; it has no number and is no node.
-/

namespace SyntaxGraph

/-- A node or a value leaf. -/
inductive Numbered where
  | node (entry : Entry) (children : List (String × Numbered))
  | value (scalar : Scalar)
  deriving BEq, Inhabited

/-- A node with its children, each with the field that holds it. -/
structure NumberedNode where
  entry : Entry
  children : List (String × Numbered)
  deriving BEq, Inhabited

namespace Numbered

def asNode? : Numbered → Option NumberedNode
  | .node entry children => some ⟨entry, children⟩
  | .value _ => none

mutual

/-- The number of nodes in a subtree; a value leaf is none. -/
def nodeCount : Numbered → Nat
  | .node _ children => 1 + nodeCountList children
  | .value _ => 0

/-- The number of nodes among children and below them. -/
def nodeCountList : List (String × Numbered) → Nat
  | [] => 0
  | (_, child) :: rest => child.nodeCount + nodeCountList rest

end

mutual

/-- The number of nodes and value leaves in a subtree. -/
def size : Numbered → Nat
  | .node _ children => 1 + sizeList children
  | .value _ => 1

/-- The number of nodes and value leaves among children and below them. -/
def sizeList : List (String × Numbered) → Nat
  | [] => 0
  | (_, child) :: rest => child.size + sizeList rest

end

theorem sizeList_append (a b : List (String × Numbered)) :
    sizeList (a ++ b) = sizeList a + sizeList b := by
  induction a with
  | nil => simp [sizeList]
  | cons c rest ih => simp [sizeList, ih, Nat.add_assoc]

end Numbered

namespace NumberedNode

/-- The node as a child. -/
def toNumbered (n : NumberedNode) : Numbered := .node n.entry n.children

/-- The children that are nodes, each with its field. -/
def childNodes (n : NumberedNode) : List (String × NumberedNode) :=
  n.children.filterMap fun (field, child) => child.asNode?.map (field, ·)

def nodeCount (n : NumberedNode) : Nat := n.toNumbered.nodeCount

end NumberedNode

/-- The numbers of the nodes of a stack of subtrees, the next subtree on top, in pre-order. -/
def preorderIdsOf : List (String × Numbered) → List NodeId
  | [] => []
  | (_, .value _) :: rest => preorderIdsOf rest
  | (_, .node entry children) :: rest => entry.id :: preorderIdsOf (children ++ rest)
termination_by stack => Numbered.sizeList stack
decreasing_by
  · simp [Numbered.sizeList, Numbered.size]
  · simp [Numbered.sizeList, Numbered.size, Numbered.sizeList_append]

/-- The numbers of the nodes of a subtree in pre-order, found with a stack. -/
def NumberedNode.preorderIds (n : NumberedNode) : List NodeId :=
  preorderIdsOf [("", n.toNumbered)]

end SyntaxGraph
