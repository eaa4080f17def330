import SyntaxGraph.ParseReport
import SyntaxGraph.Wire.FlatTree
import SyntaxGraph.Wire.Tree

/-!
# The JSON form of parse reports

All five keys are written; the three that may be absent are then `null`. Reading takes a key that
an object lacks for `null`, but an array has to have all five values.
-/

namespace SyntaxGraph

namespace ParseReport

def toJson (r : ParseReport) : Json :=
  .object [("success", .bool r.success), ("tree", Json.orNull (r.tree.map NumberedNode.toJson)),
    ("error", Json.orNull (r.error.map .string)), ("lines", .int r.lines),
    ("flattened", Json.orNull (r.flattened.map FlatOutput.toJson))]

def keys : RecordKeys := { leading := ["success", "tree", "error", "lines", "flattened"] }

/-- Read a report; the number of lines is a 64-bit word. -/
def ofJson? (j : Json) : Option ParseReport := do
  return {
    success := ← (← j.under? keys "success").asBool?
    tree := ← Json.optional? NumberedNode.ofJson? (j.under? keys "tree")
    error := ← Json.optional? Json.asString? (j.under? keys "error")
    lines := ← (← j.under? keys "lines").asNatBelow? UInt64.size
    flattened := ← Json.optional? FlatOutput.ofJson? (j.under? keys "flattened") }

end ParseReport

namespace Span

def toJson (s : Span) : Json :=
  .object [("start_line", .int s.startLine.toNat), ("start_col", .int s.startCol.toNat),
    ("end_line", .int s.endLine.toNat), ("end_col", .int s.endCol.toNat)]

def keys : RecordKeys := { leading := ["start_line", "start_col", "end_line", "end_col"] }

def ofJson? (j : Json) : Option Span := do
  return {
    startLine := ← (← j.under? keys "start_line").asWord?
    startCol := ← (← j.under? keys "start_col").asWord?
    endLine := ← (← j.under? keys "end_line").asWord?
    endCol := ← (← j.under? keys "end_col").asWord? }

end Span

end SyntaxGraph
