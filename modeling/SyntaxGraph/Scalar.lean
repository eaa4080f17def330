import SyntaxGraph.SortedMap
import SyntaxGraph.Decimal.Layout

/-!
# Scalars and attributes

A scalar is what a leaf value of a tree can be. It is never null: where a value may be missing,
an `Option` says so, as in the attributes of a node.
-/

namespace SyntaxGraph

/-- A truth value, a 64-bit integer, a float or a text. -/
inductive Scalar where
  | bool (value : Bool)
  | int (value : Int64)
  | float (value : Float)
  | str (value : String)
  deriving BEq, Inhabited

namespace Scalar

/-- The text of a string scalar; other scalars have none. -/
def asStr? : Scalar → Option String
  | .str s => some s
  | _ => none

/-- Floats in running text: never with an exponent, whole floats without a fraction. -/
def floatLayout : Layout := ⟨.up, none, false, false⟩

/-- The text of a float, also of those that are not finite. -/
def floatText (x : Float) : String :=
  if x.isNaN then "NaN"
  else if x.isInf then (if x < 0 then "-inf" else "inf")
  else floatLayout.writeFloat x

/-- The text of a scalar, a string being its own. -/
def display : Scalar → String
  | .bool b => if b then "true" else "false"
  | .int i => toString i.toInt
  | .float x => floatText x
  | .str s => s

end Scalar

/-- The attributes of a node. `none` is a field that the kind of node has and that holds
nothing. -/
abbrev Attributes := SortedMap (Option Scalar)

/-- A node's number, unique within one parse. -/
abbrev NodeId := UInt32

/-- What a node says of itself, whatever tree or list it stands in. -/
structure Entry where
  id : NodeId
  name : String
  attributes : Attributes
  deriving BEq, Inhabited

end SyntaxGraph
