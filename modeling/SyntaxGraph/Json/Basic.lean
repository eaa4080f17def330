import SyntaxGraph.SortedMap

/-!
# JSON values

A number keeps the kind it was written in: `1` is an integer and `1.0` a float. The members of an
object are a listing in the order in which they are written; `Json.sortKeys` is the same value
with the members of every object in key order, which is the normal form of values that were
read.
-/

namespace SyntaxGraph

/-- An integer or a float; the two kinds are told apart in the text and by every reader. -/
inductive Json.Number where
  | int (value : Int)
  | float (value : Float)
  deriving BEq, Inhabited

/-- A JSON value. -/
inductive Json where
  | null
  | bool (value : Bool)
  | number (value : Json.Number)
  | string (value : String)
  | array (items : List Json)
  | object (members : List (String × Json))
  deriving BEq, Inhabited

namespace Json

def int (value : Int) : Json := .number (.int value)

/-- The value under a key of an object; other values have no keys. -/
def get? (key : String) : Json → Option Json
  | .object members => members.lookup key
  | _ => none

/-- A value that may be absent; absence is `null`. -/
def orNull : Option Json → Json
  | none => .null
  | some value => value

mutual

/-- The value with the members of every object in key order; of members with one key the last
counts. -/
def sortKeys : Json → Json
  | .array items => .array (sortKeysItems items)
  | .object members => .object (SortedMap.ofList (sortKeysMembers members)).entries
  | value => value

/-- `sortKeys` in every item. -/
def sortKeysItems : List Json → List Json
  | [] => []
  | item :: rest => item.sortKeys :: sortKeysItems rest

/-- `sortKeys` in every member's value. -/
def sortKeysMembers : List (String × Json) → List (String × Json)
  | [] => []
  | (key, value) :: rest => (key, value.sortKeys) :: sortKeysMembers rest

end

end Json

end SyntaxGraph
