import SyntaxGraph.NumberedTree.Numbering

/-!
# Trees listed in pre-order

A `Listed` item says how deep it stands and which field holds it. Level and field along a
pre-order listing determine the shape of a tree: the parent of an item is the last one before it
that is one level higher.

Numbered trees and raw trees are both listed by plain recursion. In a raw tree a list that is
itself an item of a list is passed over, with all that it holds.

Main statement: `NumberedNode.preorderIds_eq`, by which the walk with a stack gives the numbers of
this listing.
-/

namespace SyntaxGraph

/-- Something in a tree, with the place where a pre-order listing meets it. -/
structure Listed (α : Type) where
  /-- the number of levels above it -/
  depth : Nat
  /-- the field of its parent that holds it; the root has none -/
  field : Option String
  item : α

/-! ## Numbered trees -/

namespace Numbered

mutual

/-- The entries of the nodes of a subtree, in pre-order. -/
def entries : Numbered → List Entry
  | .node entry children => entry :: entriesList children
  | .value _ => []

def entriesList : List (String × Numbered) → List Entry
  | [] => []
  | (_, child) :: rest => child.entries ++ entriesList rest

end

mutual

/-- The listing of a subtree; a value leaf is not listed. -/
def listing (depth : Nat) (field : Option String) : Numbered → List (Listed Entry)
  | .node entry children => ⟨depth, field, entry⟩ :: listingList (depth + 1) children
  | .value _ => []

/-- The listing of children, which stand at `depth`. -/
def listingList (depth : Nat) : List (String × Numbered) → List (Listed Entry)
  | [] => []
  | (field, child) :: rest => child.listing depth (some field) ++ listingList depth rest

end

mutual

theorem map_item_listing (depth : Nat) (field : Option String) :
    ∀ c : Numbered, (c.listing depth field).map (·.item) = c.entries
  | .node entry children => by
    rw [listing, entries, List.map_cons, map_item_listingList (depth + 1) children]
  | .value _ => rfl

theorem map_item_listingList (depth : Nat) :
    ∀ children : List (String × Numbered),
      (listingList depth children).map (·.item) = entriesList children
  | [] => rfl
  | (field, child) :: rest => by
    rw [listingList, entriesList, List.map_append, map_item_listing depth (some field) child,
      map_item_listingList depth rest]

end

mutual

theorem length_entries : ∀ c : Numbered, c.entries.length = c.nodeCount
  | .node entry children => by
    rw [entries, nodeCount, List.length_cons, length_entriesList children, Nat.add_comm]
  | .value _ => rfl

theorem length_entriesList :
    ∀ children : List (String × Numbered), (entriesList children).length = nodeCountList children
  | [] => rfl
  | (_, child) :: rest => by
    rw [entriesList, nodeCountList, List.length_append, length_entries child,
      length_entriesList rest]

end

theorem entriesList_append (a b : List (String × Numbered)) :
    entriesList (a ++ b) = entriesList a ++ entriesList b := by
  induction a with
  | nil => rfl
  | cons c rest ih =>
    obtain ⟨field, child⟩ := c
    rw [List.cons_append, entriesList, entriesList, ih, List.append_assoc]

theorem listingList_append (depth : Nat) (a b : List (String × Numbered)) :
    listingList depth (a ++ b) = listingList depth a ++ listingList depth b := by
  induction a with
  | nil => rfl
  | cons c rest ih =>
    obtain ⟨field, child⟩ := c
    rw [List.cons_append, listingList, listingList, ih, List.append_assoc]

end Numbered

/-- The walk with a stack meets the entries of the stacked subtrees one subtree after the
other. -/
theorem preorderIdsOf_eq (stack : List (String × Numbered)) :
    preorderIdsOf stack = (Numbered.entriesList stack).map (·.id) := by
  fun_induction preorderIdsOf stack with
  | case1 => rfl
  | case2 field scalar rest ih => rw [ih, Numbered.entriesList, Numbered.entries, List.nil_append]
  | case3 field entry children rest ih =>
    rw [ih, Numbered.entriesList_append, Numbered.entriesList, Numbered.entries,
      List.cons_append, List.map_cons]

namespace NumberedNode

def listing (n : NumberedNode) : List (Listed Entry) := n.toNumbered.listing 0 none

/-- **The numbers found with a stack are those of the recursive listing.** -/
theorem preorderIds_eq (n : NumberedNode) :
    n.preorderIds = n.toNumbered.entries.map (·.id) := by
  rw [preorderIds, preorderIdsOf_eq, Numbered.entriesList, Numbered.entriesList, List.append_nil]

theorem preorderIds_eq_listing (n : NumberedNode) :
    n.preorderIds = n.listing.map (·.item.id) := by
  rw [preorderIds_eq, ← Numbered.map_item_listing 0 none, List.map_map]
  rfl

theorem length_listing (n : NumberedNode) : n.listing.length = n.nodeCount := by
  rw [← List.length_map (·.item), listing, Numbered.map_item_listing, Numbered.length_entries]
  rfl

end NumberedNode

/-! ## Raw trees -/

namespace RawValue

mutual

/-- The listing of what a field holds. -/
def listing (depth : Nat) (field : Option String) : RawValue → List (Listed RawNode)
  | .node kind fields => ⟨depth, field, ⟨kind, fields⟩⟩ :: listingFields (depth + 1) fields
  | .list items => listingItems depth field items
  | _ => []

/-- The listing of the items of a list, without lists among them. -/
def listingItems (depth : Nat) (field : Option String) : List RawValue → List (Listed RawNode)
  | [] => []
  | .list _ :: rest => listingItems depth field rest
  | item :: rest => item.listing depth field ++ listingItems depth field rest

def listingFields (depth : Nat) : List (String × RawValue) → List (Listed RawNode)
  | [] => []
  | (name, value) :: rest => value.listing depth (some name) ++ listingFields depth rest

end

theorem listingItems_cons (depth : Nat) (field : Option String) (item : RawValue)
    (rest : List RawValue) :
    listingItems depth field (item :: rest) =
      listingItems depth field [item] ++ listingItems depth field rest := by
  cases item <;> simp [listingItems]

end RawValue

def RawNode.listing (n : RawNode) : List (Listed RawNode) := n.toValue.listing 0 none

end SyntaxGraph
