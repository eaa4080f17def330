/-!
# What a tree carries beyond the grammar's fields
-/

namespace SyntaxGraph

/-- What is added to every node of a tree. -/
structure TreeOptions where
  /-- the attributes `start_line`, `start_col`, `end_line`, `end_col` -/
  includePositions : Bool := false
  /-- the attribute `text` on nodes without child nodes -/
  includeLeafText : Bool := true
  /-- comments, as children in the field `comments` -/
  includeComments : Bool := false
  deriving DecidableEq, Repr

instance : Inhabited TreeOptions := ⟨{}⟩

end SyntaxGraph
