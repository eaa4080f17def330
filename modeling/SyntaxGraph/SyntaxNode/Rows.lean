import SyntaxGraph.SyntaxNode
import SyntaxGraph.Json.Basic

/-!
# Syntax trees as tables

A tree can be handed over as a table: one row for each node in document order, with the node's
depth. The children of a row are the rows one level deeper that follow it before the next row of
its own level or above.

A row is the JSON array
`[depth, kind, flags, field, startByte, endByte, startRow, startColumn, endRow, endColumn]`,
where `flags` holds a letter for each flag that is set: `n` named, `x` extra, `e` error,
`m` missing, `h` has an error.
-/

namespace SyntaxGraph

/-- A node and its depth below the root. -/
structure TreeRow where
  depth : Nat
  label : NodeLabel
  deriving Inhabited

namespace TreeRow

/-- Put a row in front of the trees that its followers form: those deeper than it are its
children. -/
def addRow (row : TreeRow) (trees : List (Nat × SyntaxNode)) : List (Nat × SyntaxNode) :=
  let (below, rest) := trees.span fun tree => row.depth < tree.1
  (row.depth, ⟨row.label, below.map (·.2)⟩) :: rest

/-- The tree of a table whose first row is the root of all others. -/
def tree? (rows : List TreeRow) : Option SyntaxNode :=
  match rows.foldr addRow [] with
  | [(_, root)] => some root
  | _ => none

/-- A natural number. -/
def nat? : Json → Option Nat
  | .number (.int i) => if 0 ≤ i then some i.toNat else none
  | _ => none

/-- A text or nothing. -/
def field? : Json → Option (Option String)
  | .null => some none
  | .string s => some (some s)
  | _ => none

/-- Read a row. -/
def ofJson? : Json → Option TreeRow
  | .array [depth, .string kind, .string flags, field, startByte, endByte, startRow, startColumn,
      endRow, endColumn] => do
    let flag (c : Char) : Bool := flags.toList.contains c
    return {
      depth := ← nat? depth
      label := {
        kind
        isNamed := flag 'n'
        isExtra := flag 'x'
        isError := flag 'e'
        isMissing := flag 'm'
        hasError := flag 'h'
        field := ← field? field
        startByte := ← nat? startByte
        endByte := ← nat? endByte
        startPoint := ⟨← nat? startRow, ← nat? startColumn⟩
        endPoint := ⟨← nat? endRow, ← nat? endColumn⟩ } }
  | _ => none

end TreeRow

/-- Read a tree from its table. -/
def SyntaxNode.ofJson? : Json → Option SyntaxNode
  | .array rows => (rows.mapM TreeRow.ofJson?).bind TreeRow.tree?
  | _ => none

end SyntaxGraph
