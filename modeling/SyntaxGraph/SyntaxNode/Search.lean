import SyntaxGraph.SyntaxNode

/-!
# Searching a syntax tree in document order

`findFirst` walks a tree with a stack of subtrees still to be seen: it stops at the first node
that matches and passes over the subtrees of nodes that it may not enter. `reachable` is the
listing that the walk goes through, by plain recursion: a node, and below it, if it may be
entered, its children's listings one after the other.
-/

namespace SyntaxGraph.SyntaxNode

/-- The first match in the subtrees of a stack, the next subtree on top. -/
def findFirstIn (isMatch enter : SyntaxNode → Bool) : List SyntaxNode → Option SyntaxNode
  | [] => none
  | n :: rest =>
    if isMatch n then some n
    else if enter n then findFirstIn isMatch enter (n.children ++ rest)
    else findFirstIn isMatch enter rest
termination_by stack => nodeCountList stack
decreasing_by
  · rw [nodeCountList_append, nodeCountList, nodeCount_eq]; omega
  · rw [nodeCountList, nodeCount_eq]; omega

/-- The first node in document order that matches, among those all of whose proper ancestors may
be entered. -/
def findFirst (isMatch enter : SyntaxNode → Bool) (root : SyntaxNode) : Option SyntaxNode :=
  findFirstIn isMatch enter [root]

mutual

/-- The nodes, in document order, all of whose proper ancestors may be entered. -/
def reachable (enter : SyntaxNode → Bool) : SyntaxNode → List SyntaxNode
  | ⟨label, children⟩ =>
    ⟨label, children⟩ :: if enter ⟨label, children⟩ then reachableList enter children else []

/-- `reachable` in several subtrees. -/
def reachableList (enter : SyntaxNode → Bool) : List SyntaxNode → List SyntaxNode
  | [] => []
  | n :: rest => n.reachable enter ++ reachableList enter rest

end

end SyntaxGraph.SyntaxNode
