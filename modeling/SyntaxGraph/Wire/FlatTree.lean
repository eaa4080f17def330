import SyntaxGraph.FlatTree
import SyntaxGraph.Wire.Entry

/-!
# The JSON form of flat trees

A node of the nested view omits `children` and `field` when they are absent. The views of an
absent tree are the record without keys; every object that is no flat tree is read as that.
-/

namespace SyntaxGraph

namespace Link

def toJson (l : Link) : Json :=
  .object [("source", .int l.source.toNat), ("target", .int l.target.toNat),
    ("field", .string l.field)]

def keys : RecordKeys := { leading := ["source", "target", "field"] }

def ofJson? (j : Json) : Option Link := do
  return {
    source := ← (← j.under? keys "source").asWord?
    target := ← (← j.under? keys "target").asWord?
    field := ← (← j.under? keys "field").asString? }

end Link

/-- The member of a key that is omitted when there is nothing to write. -/
def optionalMember (key : String) : Option Json → List (String × Json)
  | none => []
  | some value => [(key, value)]

namespace Hierarchy

mutual

/-- The JSON form of a node of the nested view. -/
def toJson : Hierarchy → Json
  | ⟨entry, none, field⟩ =>
    .object (entry.toMembers ++ optionalMember "field" (field.map .string))
  | ⟨entry, some children, field⟩ =>
    .object (entry.toMembers ++ [("children", .array (listToJson children))]
      ++ optionalMember "field" (field.map .string))

def listToJson : List Hierarchy → List Json
  | [] => []
  | h :: rest => h.toJson :: listToJson rest

end

def keys : RecordKeys where
  leading := ["id", "name", "attributes"]
  trailing := ["children", "field"]

mutual

/-- Read a node of the nested view. -/
def ofJson? (j : Json) : Option Hierarchy :=
  match Entry.ofRecord? keys j, Json.optional? Json.asString? (j.under? keys "field"),
      _h : j.under? keys "children" with
  | some entry, some field, none => some ⟨entry, none, field⟩
  | some entry, some field, some .null => some ⟨entry, none, field⟩
  | some entry, some field, some (.array items) => (listOfJson? items).map (⟨entry, some ·, field⟩)
  | _, _, _ => none
termination_by sizeOf j
decreasing_by
  have := Json.sizeOf_lt_of_under? (by assumption)
  simp only [Json.array.sizeOf_spec] at this
  omega

def listOfJson? (items : List Json) : Option (List Hierarchy) :=
  match items with
  | [] => some []
  | item :: rest =>
    match ofJson? item, listOfJson? rest with
    | some h, some hs => some (h :: hs)
    | _, _ => none
termination_by sizeOf items

end

end Hierarchy

/-- Read the items of an array. -/
def Json.items? {α : Type} (read : Json → Option α) : Json → Option (List α)
  | .array items => items.mapM read
  | _ => none

namespace FlatTree

def toJson (t : FlatTree) : Json :=
  .object [("nodes", .array (t.nodes.map Entry.toJson)),
    ("links", .array (t.links.map Link.toJson)), ("hierarchy", t.hierarchy.toJson)]

def keys : RecordKeys := { leading := ["nodes", "links", "hierarchy"] }

def ofJson? (j : Json) : Option FlatTree := do
  return {
    nodes := ← (← j.under? keys "nodes").items? Entry.ofJson?
    links := ← (← j.under? keys "links").items? Link.ofJson?
    hierarchy := ← Hierarchy.ofJson? (← j.under? keys "hierarchy") }

end FlatTree

namespace FlatOutput

/-- The JSON form of the views of a tree that may be absent. -/
def toJson : FlatOutput → Json
  | .tree t => t.toJson
  | .empty => .object []

/-- Read the record without keys. -/
def emptyOfJson? (j : Json) : Option FlatOutput :=
  (j.members? { leading := [] }).map fun _ => .empty

/-- Read the views of a tree that may be absent. -/
def ofJson? (j : Json) : Option FlatOutput :=
  match FlatTree.ofJson? j with
  | some t => some (.tree t)
  | none => emptyOfJson? j

end FlatOutput

end SyntaxGraph
