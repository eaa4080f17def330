import SyntaxGraph.Grammar.Schema
import SyntaxGraph.Json.Record
import SyntaxGraph.Json.Written

/-!
# Reading node types

A grammar publishes its node types as a JSON text: an array of records with the keys `type`,
`named`, `fields` and `children`, the last two optional, and in them records with the keys
`multiple` and `types`. Any other key is skipped, whatever well-formed value it has. A key of
these records may not be repeated; the name of a field may.
-/

namespace SyntaxGraph

/-- Why a text does not list node types. -/
inductive NodeTypesError where
  /-- the text, or a string in it, is no JSON -/
  | text (cause : Json.TextError)
  /-- a value is not what its place asks for -/
  | mismatch (expected : String)
  | missingKey (key : String)
  | repeatedKey (key : String)
  deriving DecidableEq, Repr

namespace NodeTypesError

def message : NodeTypesError → String
  | .text cause => cause.message
  | .mismatch expected => "expected " ++ expected
  | .missingKey key => "missing key '" ++ key ++ "'"
  | .repeatedKey key => "repeated key '" ++ key ++ "'"

end NodeTypesError

namespace NodeTypes

open Json (Written)

def readString : Written → Except NodeTypesError String
  | .string parts => (Written.text parts).mapError .text
  | _ => .error (.mismatch "a string")

def readBool : Written → Except NodeTypesError Bool
  | .bool b => .ok b
  | _ => .error (.mismatch "a boolean")

/-- The members of an object, in the order of the text. -/
def readMembers : Written → Except NodeTypesError (List (String × Written))
  | .object members => members.mapM fun (key, value) => do
    return (← (Written.text key).mapError .text, value)
  | _ => .error (.mismatch "an object")

/-- The values of a record with their keys, none of which may be repeated. -/
def readRecord (keys : RecordKeys) : Written → Except NodeTypesError (List (String × Written))
  | .array items =>
    match keys.label? items with
    | some members => .ok members
    | none => .error (.mismatch "an array of another length")
  | w => do
    let members := (← readMembers w).filter fun m => keys.all.contains m.1
    match keys.all.find? fun key => 1 < members.countP fun m => m.1 = key with
    | some key => .error (.repeatedKey key)
    | none => .ok members

/-- The value under a key that has to be there. -/
def require (members : List (String × Written)) (key : String) :
    Except NodeTypesError Written :=
  match members.lookup key with
  | some value => .ok value
  | none => .error (.missingKey key)

def readItems {α : Type} (read : Written → Except NodeTypesError α) :
    Written → Except NodeTypesError (List α)
  | .array items => items.mapM read
  | _ => .error (.mismatch "an array")

def typeRefKeys : RecordKeys := { leading := ["named"] }

def childSpecKeys : RecordKeys := { leading := ["multiple", "types"] }

def typeKeys : RecordKeys := { leading := ["type", "named"], trailing := ["fields", "children"] }

/-- Whether a type of node that can stand somewhere is named. -/
def readTypeRef (w : Written) : Except NodeTypesError Bool := do
  readBool (← require (← readRecord typeRefKeys w) "named")

/-- What a grammar says of a field. -/
def readChildSpec (w : Written) : Except NodeTypesError ChildSpec := do
  let members ← readRecord childSpecKeys w
  return {
    multiple := ← readBool (← require members "multiple")
    namedTypes := ← readItems readTypeRef (← require members "types") }

/-- The fields of a type of node; none when the key is absent. -/
def readFields : Option Written → Except NodeTypesError (List (String × ChildSpec))
  | none => .ok []
  | some w => do (← readMembers w).mapM fun (name, spec) => do return (name, ← readChildSpec spec)

/-- The children without a field; `null` and absence both say that there are none. -/
def readChildren : Option Written → Except NodeTypesError (Option ChildSpec)
  | none | some .null => .ok none
  | some w => (readChildSpec w).map some

def readType (w : Written) : Except NodeTypesError NodeType := do
  let members ← readRecord typeKeys w
  return {
    kind := ← readString (← require members "type")
    isNamed := ← readBool (← require members "named")
    fields := ← readFields (members.lookup "fields")
    children := ← readChildren (members.lookup "children") }

/-- The node types that a text lists. -/
def ofText (text : String) : Except NodeTypesError (List NodeType) := do
  readItems readType (← (Written.ofText text).mapError .text)

end NodeTypes

/-- The schema of a text of node types. -/
def GrammarSchema.ofNodeTypes (text : String) : Except NodeTypesError GrammarSchema :=
  (NodeTypes.ofText text).map GrammarSchema.ofTypes

end SyntaxGraph
