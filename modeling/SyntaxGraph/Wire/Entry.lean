import SyntaxGraph.Json.Record
import SyntaxGraph.Scalar

/-!
# The JSON form of scalars and entries

A scalar is the JSON value of its kind. Reading tells the kinds apart by the value alone:
integers beyond 64 signed bits are read as floats. A float that is not finite has no JSON form
and is written as `null`.

Entries, and everything made of them, are read as records. Only scalars and attributes have a single
form.
-/

namespace SyntaxGraph

/-! ## Readers of plain values -/

namespace Json

def asString? : Json → Option String
  | .string s => some s
  | _ => none

def asBool? : Json → Option Bool
  | .bool b => some b
  | _ => none

/-- A natural number below a bound. -/
def asNatBelow? (bound : Nat) : Json → Option Nat
  | .number (.int i) => if 0 ≤ i ∧ i < bound then some i.toNat else none
  | _ => none

def asWord? (j : Json) : Option UInt32 := (j.asNatBelow? UInt32.size).map UInt32.ofNat

/-- What stands under a key that may be absent or `null`. -/
def optional? {α : Type} (read : Json → Option α) : Option Json → Option (Option α)
  | none => some none
  | some .null => some none
  | some j => (read j).map some

end Json

/-! ## Scalars -/

namespace Scalar

def toJson : Scalar → Json
  | .bool b => .bool b
  | .int i => .int i.toInt
  | .float x => if x.isFinite then .number (.float x) else .null
  | .str s => .string s

def ofJson? : Json → Option Scalar
  | .bool b => some (.bool b)
  | .number (.int i) =>
    if Int64.minValue.toInt ≤ i ∧ i ≤ Int64.maxValue.toInt then some (.int (Int64.ofInt i))
    else some (.float (Float.ofInt i))
  | .number (.float x) => some (.float x)
  | .string s => some (.str s)
  | _ => none

end Scalar

/-! ## Attributes and entries -/

/-- The JSON form of attributes: an object in key order. -/
def Attributes.toJson (attributes : Attributes) : Json :=
  .object (attributes.entries.map fun e => (e.1, Json.orNull (e.2.map Scalar.toJson)))

/-- Read an attribute's value. -/
def Attributes.valueOfJson? : Json → Option (Option Scalar)
  | .null => some none
  | j => (Scalar.ofJson? j).map some

def Attributes.ofJson? : Json → Option Attributes
  | .object members =>
    (members.mapM fun (m : String × Json) => (Attributes.valueOfJson? m.2).map (m.1, ·)).map
      SortedMap.ofList
  | _ => none

namespace Entry

/-- The members that an entry has in every JSON form. -/
def toMembers (e : Entry) : List (String × Json) :=
  [("id", .int e.id.toNat), ("name", .string e.name),
    ("attributes", Attributes.toJson e.attributes)]

/-- Read an entry from a record with these keys, which may have others besides. -/
def ofRecord? (keys : RecordKeys) (j : Json) : Option Entry := do
  return {
    id := ← (← j.under? keys "id").asWord?
    name := ← (← j.under? keys "name").asString?
    attributes := ← Attributes.ofJson? (← j.under? keys "attributes") }

/-- The JSON form of an entry in a list of nodes. -/
def toJson (e : Entry) : Json := .object (("type", .string "node") :: e.toMembers)

def keys : RecordKeys := { leading := ["id", "name", "attributes"] }

/-- Read an entry of a list of nodes; its `type` is not looked at. -/
def ofJson? (j : Json) : Option Entry := ofRecord? keys j

end Entry

end SyntaxGraph
