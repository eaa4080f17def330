import SyntaxGraph.FlatTree
import SyntaxGraph.NumberedTree

/-!
# Flattening a numbered tree

The lists come from a walk level by level, driven by a queue: a node that leaves the queue is
listed with the link to it and puts its children at the end. Value leaves go through the queue
and leave no trace. The hierarchy is a copy by plain recursion.
-/

namespace SyntaxGraph

/-- A subtree in the queue, with its parent and the field that holds it. -/
structure Queued where
  parent : Option (NodeId × String)
  subtree : Numbered

/-- A node that has left the queue. -/
structure Visit where
  parent : Option (NodeId × String)
  entry : Entry

/-- The link to a visited node; the root has none. -/
def Visit.link? (v : Visit) : Option Link :=
  v.parent.map fun (source, field) => ⟨source, v.entry.id, field⟩

/-- The children of a node as they enter the queue. -/
def queueChildren (id : NodeId) (children : List (String × Numbered)) : List Queued :=
  children.map fun (field, child) => ⟨some (id, field), child⟩

/-- The number of nodes and value leaves below a queue. -/
def queueSize : List Queued → Nat
  | [] => 0
  | q :: rest => q.subtree.size + queueSize rest

theorem queueSize_append (a b : List Queued) :
    queueSize (a ++ b) = queueSize a + queueSize b := by
  induction a with
  | nil => simp [queueSize]
  | cons q rest ih => simp [queueSize, ih, Nat.add_assoc]

theorem queueSize_queueChildren (id : NodeId) (children : List (String × Numbered)) :
    queueSize (queueChildren id children) = Numbered.sizeList children := by
  induction children with
  | nil => rfl
  | cons c rest ih =>
    simpa [queueSize, queueChildren, Numbered.sizeList] using ih

/-- The nodes below a queue in the order in which they leave it. -/
def visitsFrom : List Queued → List Visit
  | [] => []
  | ⟨_, .value _⟩ :: rest => visitsFrom rest
  | ⟨parent, .node entry children⟩ :: rest =>
    ⟨parent, entry⟩ :: visitsFrom (rest ++ queueChildren entry.id children)
termination_by queue => queueSize queue
decreasing_by
  · simp [queueSize, Numbered.size]
  · have h := queueSize_queueChildren entry.id children
    rw [queueSize_append, h, queueSize, Numbered.size]
    omega

mutual

/-- The nested copy of a child; a value leaf has none. -/
def hierarchyOf (field : String) : Numbered → Option Hierarchy
  | .node entry children => some ⟨entry, someUnlessEmpty (hierarchiesOf children), some field⟩
  | .value _ => none

/-- The nested copies of the children that are nodes. -/
def hierarchiesOf : List (String × Numbered) → List Hierarchy
  | [] => []
  | (field, child) :: rest =>
    match hierarchyOf field child with
    | some h => h :: hierarchiesOf rest
    | none => hierarchiesOf rest

end

namespace NumberedNode

/-- The nodes level by level, each with its parent. -/
def visits (root : NumberedNode) : List Visit := visitsFrom [⟨none, root.toNumbered⟩]

/-- The nested copy. -/
def hierarchy (root : NumberedNode) : Hierarchy :=
  ⟨root.entry, someUnlessEmpty (hierarchiesOf root.children), none⟩

/-- The three views of a tree. -/
def flatten (root : NumberedNode) : FlatTree where
  nodes := root.visits.map (·.entry)
  links := root.visits.filterMap Visit.link?
  hierarchy := root.hierarchy

end NumberedNode

/-- The three views of a tree, if there is one. -/
def FlatOutput.ofTree? : Option NumberedNode → FlatOutput
  | some root => .tree root.flatten
  | none => .empty

end SyntaxGraph
