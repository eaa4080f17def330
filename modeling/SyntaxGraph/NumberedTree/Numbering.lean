import SyntaxGraph.NumberedTree
import SyntaxGraph.RawTree

/-!
# Numbering a raw tree

Nodes are numbered in pre-order, from the number that comes next; the numbering hands out every
number once. The fields of a raw node are sorted by what they hold: nothing and scalars become
attributes, nodes and the items of lists become children under the field's name. A list inside a
list is dropped with all that it holds.
-/

namespace SyntaxGraph

/-- The fields that hold nothing or a scalar; of two with one name the later counts. -/
def attributesOf (fields : List (String × RawValue)) : Attributes :=
  SortedMap.ofList <| fields.filterMap fun (name, value) =>
    match value with
    | .null => some (name, none)
    | .scalar s => some (name, some s)
    | _ => none

mutual

/-- The children that a field gives, numbered from `next`, and the number that comes next. -/
def numberField (next : NodeId) (field : String) : RawValue → List (String × Numbered) × NodeId
  | .node kind fields =>
    let (children, after) := numberFields (next + 1) fields
    ([(field, .node ⟨next, kind, attributesOf fields⟩ children)], after)
  | .list items => numberItems next field items
  | _ => ([], next)

/-- The child that an item of a list gives, if any. -/
def numberItem (next : NodeId) (field : String) : RawValue → List (String × Numbered) × NodeId
  | .node kind fields =>
    let (children, after) := numberFields (next + 1) fields
    ([(field, .node ⟨next, kind, attributesOf fields⟩ children)], after)
  | .scalar s => ([(field, .value s)], next)
  | _ => ([], next)

/-- The children that the items of a list give. -/
def numberItems (next : NodeId) (field : String) :
    List RawValue → List (String × Numbered) × NodeId
  | [] => ([], next)
  | item :: rest =>
    let (here, between) := numberItem next field item
    let (there, after) := numberItems between field rest
    (here ++ there, after)

/-- The children that the fields of a node give. -/
def numberFields (next : NodeId) :
    List (String × RawValue) → List (String × Numbered) × NodeId
  | [] => ([], next)
  | (field, value) :: rest =>
    let (here, between) := numberField next field value
    let (there, after) := numberFields between rest
    (here ++ there, after)

end

/-- How many numbers have been handed out. -/
structure Numbering where
  assigned : NodeId := 0
  deriving DecidableEq, Inhabited, Repr

namespace Numbering

/-- Number a node and its subtree. -/
def node (n : Numbering) (raw : RawNode) : NumberedNode × Numbering :=
  let (children, after) := numberFields (n.assigned + 1) raw.fields
  (⟨⟨n.assigned, raw.kind, attributesOf raw.fields⟩, children⟩, ⟨after⟩)

/-- Number what stands where a node might: a scalar is a value leaf; nothing, absence and a list
give nothing. -/
def convert (n : Numbering) : Option RawValue → Option Numbered × Numbering
  | some (.node kind fields) =>
    let (root, after) := n.node ⟨kind, fields⟩
    (some root.toNumbered, after)
  | some (.scalar s) => (some (.value s), n)
  | _ => (none, n)

end Numbering

end SyntaxGraph
