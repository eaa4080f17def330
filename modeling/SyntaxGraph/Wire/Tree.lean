import SyntaxGraph.NumberedTree
import SyntaxGraph.Wire.Entry

/-!
# The JSON form of numbered trees

A node is a record of its entry and `children`, an array of records of `field` and `node`. A value
leaf is a record of `value`, written with a `type` that no reader looks at. What stands where a node
might is read as a node if it can be, and as a value leaf if not.
-/

namespace SyntaxGraph

mutual

/-- The JSON form of a node or value leaf. -/
def Numbered.toJson : Numbered → Json
  | .node entry children =>
    .object (entry.toMembers ++ [("children", .array (childrenToJson children))])
  | .value s => .object [("type", .string "value"), ("value", s.toJson)]

def childrenToJson : List (String × Numbered) → List Json
  | [] => []
  | (field, child) :: rest =>
    .object [("field", .string field), ("node", child.toJson)] :: childrenToJson rest

end

def NumberedNode.toJson (n : NumberedNode) : Json := n.toNumbered.toJson

def NumberedNode.keys : RecordKeys := { leading := ["id", "name", "attributes", "children"] }

/-- The keys of a child with its field. -/
def childKeys : RecordKeys := { leading := ["field", "node"] }

def valueLeafKeys : RecordKeys := { leading := ["value"] }

/-- Read the scalar of a value leaf. -/
def valueLeafOfJson? (j : Json) : Option Scalar :=
  (j.under? valueLeafKeys "value").bind Scalar.ofJson?

mutual

/-- Read a node or value leaf. -/
def Numbered.ofJson? (j : Json) : Option Numbered :=
  match NumberedNode.ofJson? j with
  | some n => some n.toNumbered
  | none => (valueLeafOfJson? j).map .value
termination_by (sizeOf j, 1)

def NumberedNode.ofJson? (j : Json) : Option NumberedNode :=
  match Entry.ofRecord? NumberedNode.keys j, _h : j.under? NumberedNode.keys "children" with
  | some entry, some (.array items) => (childrenOfJson? items).map (⟨entry, ·⟩)
  | _, _ => none
termination_by (sizeOf j, 0)
decreasing_by
  have := Json.sizeOf_lt_of_under? (by assumption)
  apply Prod.Lex.left
  simp only [Json.array.sizeOf_spec] at this
  omega

def childrenOfJson? (items : List Json) : Option (List (String × Numbered)) :=
  match items with
  | [] => some []
  | item :: rest =>
    match childOfJson? item, childrenOfJson? rest with
    | some child, some children => some (child :: children)
    | _, _ => none
termination_by (sizeOf items, 0)

def childOfJson? (j : Json) : Option (String × Numbered) :=
  match (j.under? childKeys "field").bind Json.asString?, _h : j.under? childKeys "node" with
  | some field, some node => (Numbered.ofJson? node).map (field, ·)
  | _, _ => none
termination_by (sizeOf j, 0)
decreasing_by
  exact Prod.Lex.left _ _ (Json.sizeOf_lt_of_under? (by assumption))

end

end SyntaxGraph
