import SyntaxGraph.Scalar

/-!
# Raw trees

What lowering makes of a syntax tree: every node has a kind and a listing of named fields, and a
field holds nothing, a scalar, a node or a list. A name may occur twice among the fields of a
node; it then stands for the first of them.
-/

namespace SyntaxGraph

/-- What a field holds. -/
inductive RawValue where
  /-- the kind of node has the field, and this node leaves it empty -/
  | null
  | scalar (value : Scalar)
  | node (kind : String) (fields : List (String × RawValue))
  | list (items : List RawValue)
  deriving BEq, Inhabited

/-- A node with its fields in order. -/
structure RawNode where
  kind : String
  fields : List (String × RawValue)
  deriving BEq, Inhabited

namespace RawValue

def asNode? : RawValue → Option RawNode
  | .node kind fields => some ⟨kind, fields⟩
  | _ => none

def isNode (v : RawValue) : Bool := v.asNode?.isSome

/-- The value is a node, or a list with a node among its items. -/
def holdsNode : RawValue → Bool
  | .list items => items.any isNode
  | v => v.isNode

mutual

/-- The number of nodes in a value, at any depth of lists. -/
def nodeCount : RawValue → Nat
  | .null => 0
  | .scalar _ => 0
  | .node _ fields => 1 + nodeCountFields fields
  | .list items => nodeCountItems items

def nodeCountItems : List RawValue → Nat
  | [] => 0
  | v :: rest => v.nodeCount + nodeCountItems rest

def nodeCountFields : List (String × RawValue) → Nat
  | [] => 0
  | (_, v) :: rest => v.nodeCount + nodeCountFields rest

end

end RawValue

namespace RawNode

def toValue (n : RawNode) : RawValue := .node n.kind n.fields

/-- What the first field of a name holds. -/
def field? (n : RawNode) (name : String) : Option RawValue := n.fields.lookup name

/-- A field holds a node, directly or as an item of its list. -/
def hasNodeChildren (n : RawNode) : Bool := n.fields.any fun f => f.2.holdsNode

def nodeCount (n : RawNode) : Nat := n.toValue.nodeCount

end RawNode

end SyntaxGraph
