import SyntaxGraph.SyntaxNode

/-!
# Spans

Where a node stands in the source, as it is shown: lines from one, columns from zero, both as
32-bit words. A row beyond the words wraps around.
-/

namespace SyntaxGraph

/-- A range of the source. -/
structure Span where
  startLine : UInt32
  startCol : UInt32
  endLine : UInt32
  endCol : UInt32
  deriving DecidableEq, Inhabited, Repr

/-- The line shown for a row. -/
def lineOfRow (row : Nat) : UInt32 := UInt32.ofNat row + 1

/-- The range that a node takes up. -/
def SyntaxNode.span (n : SyntaxNode) : Span where
  startLine := lineOfRow n.label.startPoint.row
  startCol := UInt32.ofNat n.label.startPoint.column
  endLine := lineOfRow n.label.endPoint.row
  endCol := UInt32.ofNat n.label.endPoint.column

end SyntaxGraph
