import SyntaxGraph.Config.Basic
import SyntaxGraph.Wire.Entry

/-!
# The JSON form of configurations

Every key has a default, and a key that is not known is refused.
-/

namespace SyntaxGraph

/-- The values of a record that has no other keys. -/
def Json.closedMembers? (keys : RecordKeys) (j : Json) : Option (List (String × Json)) :=
  (j.members? keys).filter fun members => members.all fun m => keys.all.contains m.1

/-- What stands under a key, or its default when the key is missing. -/
def Json.defaulted? {α : Type} (read : Json → Option α) (default : α) : Option Json → Option α
  | none => some default
  | some j => read j

namespace TreeOptions

def toJson (o : TreeOptions) : Json :=
  .object [("include_positions", .bool o.includePositions),
    ("include_leaf_text", .bool o.includeLeafText), ("include_comments", .bool o.includeComments)]

def keys : RecordKeys :=
  { leading := [], trailing := ["include_positions", "include_leaf_text", "include_comments"] }

def ofJson? (j : Json) : Option TreeOptions := do
  let members ← j.closedMembers? keys
  let base : TreeOptions := {}
  let flag (key : String) (default : Bool) :=
    Json.defaulted? Json.asBool? default (members.lookup key)
  return {
    includePositions := ← flag "include_positions" base.includePositions
    includeLeafText := ← flag "include_leaf_text" base.includeLeafText
    includeComments := ← flag "include_comments" base.includeComments }

end TreeOptions

namespace ApiOptions

def toJson (o : ApiOptions) : Json :=
  .object [("default_language", .string o.defaultLanguage),
    ("examples_enabled", .bool o.examplesEnabled)]

def keys : RecordKeys := { leading := [], trailing := ["default_language", "examples_enabled"] }

def ofJson? (j : Json) : Option ApiOptions := do
  let members ← j.closedMembers? keys
  let base : ApiOptions := {}
  return {
    defaultLanguage := ← Json.defaulted? Json.asString? base.defaultLanguage
      (members.lookup "default_language")
    examplesEnabled := ← Json.defaulted? Json.asBool? base.examplesEnabled
      (members.lookup "examples_enabled") }

end ApiOptions

end SyntaxGraph
