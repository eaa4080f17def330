import SyntaxGraph.FlatTree.Flatten
import SyntaxGraph.NumberedTree.Numbering
import SyntaxGraph.SourceParser

/-!
# Parse reports

The outcome of one parse. A failure of the source or of the parser is part of the report; only
reading a file can fail outside of it.
-/

namespace SyntaxGraph

/-- The outcome of one parse, in the form in which it is handed out. -/
structure ParseReport where
  success : Bool
  tree : Option NumberedNode
  error : Option String
  /-- the number of lines of the source -/
  lines : Nat
  flattened : Option FlatOutput
  deriving BEq, Inhabited

/-- The number of lines of a source: one more than its line feeds. -/
def countLines (source : String) : Nat := source.toList.count '\n' + 1

namespace ParseReport

/-- The report of a source with a tree. -/
def ofTree (tree : NumberedNode) (lines : Nat) : ParseReport where
  success := true
  tree := some tree
  error := none
  lines := lines
  flattened := some (FlatOutput.ofTree? (some tree))

/-- The report of a source without a tree. -/
def ofError (error : String) (lines : Nat) : ParseReport where
  success := false
  tree := none
  error := some error
  lines := lines
  flattened := none

/-- How a report words a failure: faults of the source speak for themselves. -/
def errorText (e : ParseError) : String :=
  if e.isFault then e.message else "Parse Error: " ++ e.message

end ParseReport

/-- Parse a source, number its tree from zero and flatten it. -/
def SourceParser.report (parser : SourceParser) (source : String) : ParseReport :=
  match parser.parse source with
  | .ok raw => .ofTree (Numbering.node {} raw).1 (countLines source)
  | .error e => .ofError (ParseReport.errorText e) (countLines source)

end SyntaxGraph
