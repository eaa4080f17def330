import SyntaxGraph.Scalar

/-!
# Flat trees

Three views of one tree: its nodes as a list, the links between parent and child as a list, and
a nested copy, the *hierarchy*.
-/

namespace SyntaxGraph

/-- A link from a parent to a child, with the field of the parent that holds the child. -/
structure Link where
  source : NodeId
  target : NodeId
  field : String
  deriving DecidableEq, Inhabited, Repr

/-- The nested view. -/
structure Hierarchy where
  entry : Entry
  /-- absent on nodes without child nodes -/
  children : Option (List Hierarchy)
  /-- the field of the parent that holds the node; absent on the root -/
  field : Option String
  deriving BEq, Inhabited

namespace Hierarchy

/-- The children, none when they are absent. -/
def childList (h : Hierarchy) : List Hierarchy := h.children.getD []

mutual

def nodeCount : Hierarchy → Nat
  | ⟨_, none, _⟩ => 1
  | ⟨_, some children, _⟩ => 1 + nodeCountList children

def nodeCountList : List Hierarchy → Nat
  | [] => 0
  | h :: rest => h.nodeCount + nodeCountList rest

end

end Hierarchy

/-- The three views. -/
structure FlatTree where
  nodes : List Entry
  links : List Link
  hierarchy : Hierarchy
  deriving BEq, Inhabited

/-- The three views of a tree, or nothing when there is no tree. -/
inductive FlatOutput where
  | tree (tree : FlatTree)
  | empty
  deriving BEq, Inhabited

namespace FlatOutput

/-- The three views. -/
def asTree? : FlatOutput → Option FlatTree
  | .tree t => some t
  | .empty => none

def isEmpty : FlatOutput → Bool
  | .tree _ => false
  | .empty => true

end FlatOutput

/-- A listing as it is kept in a nested view: an empty one is absent. -/
def someUnlessEmpty {α : Type} : List α → Option (List α)
  | [] => none
  | a :: rest => some (a :: rest)

end SyntaxGraph
