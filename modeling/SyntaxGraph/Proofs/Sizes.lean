import SyntaxGraph.Proofs.LevelOrder

/-!
# The sizes of the stages

A raw tree, the numbered tree made of it, its nested copy and its list of nodes count their nodes
by recursions of their own. Numbering passes over lists in lists, so it numbers at most the nodes
of the raw tree; from there on the counts agree.
-/

namespace SyntaxGraph

/-! ## Raw trees -/

namespace RawValue

mutual

theorem length_listing_le (depth : Nat) (field : Option String) :
    ∀ v : RawValue, (v.listing depth field).length ≤ v.nodeCount
  | .null => Nat.le_refl 0
  | .scalar _ => Nat.le_refl 0
  | .node kind fields => by
    have h := length_listingFields_le (depth + 1) fields
    rw [listing, nodeCount, List.length_cons]
    omega
  | .list items => length_listingItems_le depth field items

theorem length_listingItems_le (depth : Nat) (field : Option String) :
    ∀ items : List RawValue, (listingItems depth field items).length ≤ nodeCountItems items
  | [] => Nat.le_refl 0
  | .list inner :: rest => by
    -- a list in a list is not listed, whatever it holds
    have h := length_listingItems_le depth field rest
    rw [listingItems, nodeCountItems]
    omega
  | .null :: rest => by
    have h := length_listingItems_le depth field rest
    simpa [listingItems, listing, nodeCountItems, nodeCount] using h
  | .scalar _ :: rest => by
    have h := length_listingItems_le depth field rest
    simpa [listingItems, listing, nodeCountItems, nodeCount] using h
  | .node kind fields :: rest => by
    have hnode := length_listing_le depth field (.node kind fields)
    have hrest := length_listingItems_le depth field rest
    rw [listingItems, nodeCountItems, List.length_append]
    · omega
    · exact nofun

theorem length_listingFields_le (depth : Nat) :
    ∀ fields : List (String × RawValue),
      (listingFields depth fields).length ≤ nodeCountFields fields
  | [] => Nat.le_refl 0
  | (name, v) :: rest => by
    have hv := length_listing_le depth (some name) v
    have hrest := length_listingFields_le depth rest
    rw [listingFields, nodeCountFields, List.length_append]
    omega

end

end RawValue

theorem RawNode.length_listing_le (raw : RawNode) : raw.listing.length ≤ raw.nodeCount :=
  RawValue.length_listing_le 0 none raw.toValue

/-! ## Nested views -/

namespace Hierarchy

mutual

theorem length_sites (depth : Nat) (parent : Option NodeId) :
    ∀ h : Hierarchy, (h.sites depth parent).length = h.nodeCount
  | ⟨_, none, _⟩ => rfl
  | ⟨entry, some children, _⟩ => by
    rw [sites, nodeCount, List.length_cons, length_sitesList (depth + 1) (some entry.id) children,
      Nat.add_comm]

theorem length_sitesList (depth : Nat) (parent : Option NodeId) :
    ∀ hs : List Hierarchy, (sitesList depth parent hs).length = nodeCountList hs
  | [] => rfl
  | h :: rest => by
    rw [sitesList, nodeCountList, List.length_append, length_sites depth parent h,
      length_sitesList depth parent rest]

end

end Hierarchy

theorem NumberedNode.nodeCount_hierarchy (t : NumberedNode) :
    t.hierarchy.nodeCount = t.nodeCount := by
  have h : (t.hierarchy.sites 0 none).length = t.toNumbered.entries.length := by
    rw [← entries_hierarchy, List.length_map]
  rw [Hierarchy.length_sites, Numbered.length_entries] at h
  exact h

end SyntaxGraph
