import Mathlib.Algebra.Order.BigOperators.Group.List
import Mathlib.Algebra.Order.Group.Nat
import Mathlib.Logic.Relation
import SyntaxGraph.Proofs.HeldNodes
import SyntaxGraph.Proofs.Reports
import SyntaxGraph.Proofs.Subtrees

/-!
# The stages agree on sizes and leaves

A raw tree counts its nodes in lists of any depth, numbering passes over a list that is an item of a
list, and whether a raw node is a leaf is seen from the items of its fields alone. So a numbered
tree can have fewer nodes than its raw tree, and it has as many exactly if no list inside a list
holds a node (`RawValue.KeepsNodes`).

What a list inside a list holds is counted in nodes, whatever lists are around them
(`RawValue.containsNode_iff`), and a part of a value has at most the nodes of the value
(`RawValue.nodeCount_le`). With these the two counts are compared along the recursion that lists the
nodes which numbering meets (`RawValue.length_listing_eq_iff`).

Main statement: `stages_agree`.
-/

namespace SyntaxGraph

open Relation

namespace RawValue

/-! ## Values in values -/

/-- The second value is an item of the first. -/
inductive HasItem : RawValue → RawValue → Prop
  | item {items : List RawValue} {v : RawValue} (h : v ∈ items) : HasItem (.list items) v

/-- The second value stands directly in the first, in a field or as an item. -/
inductive HasPart : RawValue → RawValue → Prop
  | field {kind name : String} {fields : List (String × RawValue)} {v : RawValue}
      (h : (name, v) ∈ fields) : HasPart (.node kind fields) v
  | item {items : List RawValue} {v : RawValue} (h : v ∈ items) : HasPart (.list items) v

/-- The value is a node, or a list with a node among its items, the items of these, and so on. -/
def ContainsNode (v : RawValue) : Prop := ∃ r : RawNode, ReflTransGen HasItem v r.toValue

/-- Somewhere in the value the list is an item of a list. -/
def HasInnerList (v : RawValue) (inner : List RawValue) : Prop :=
  ∃ outer, ReflTransGen HasPart v (.list outer) ∧ .list inner ∈ outer

/-- No list that is an item of a list contains a node. -/
def KeepsNodes (v : RawValue) : Prop :=
  ∀ inner, v.HasInnerList inner → ¬ (RawValue.list inner).ContainsNode

variable {v w : RawValue}

theorem HasPart.nodeCount_le (h : v.HasPart w) : w.nodeCount ≤ v.nodeCount := by
  cases h with
  | field h =>
    rw [nodeCount, nodeCountFields_eq]
    exact Nat.le_add_left_of_le
      (List.le_sum_of_mem (List.mem_map_of_mem (f := fun f => f.2.nodeCount) h))
  | item h =>
    rw [nodeCount, nodeCountItems_eq]
    exact List.le_sum_of_mem (List.mem_map_of_mem h)

theorem HasItem.hasPart (v w : RawValue) (h : v.HasItem w) : v.HasPart w := by
  cases h with
  | item h => exact .item h

theorem nodeCount_le (h : ReflTransGen HasPart v w) : w.nodeCount ≤ v.nodeCount := by
  induction h with
  | refl => exact Nat.le_refl _
  | tail _ part ih => exact part.nodeCount_le.trans ih

theorem ContainsNode.of_item {items : List RawValue} (hv : v ∈ items) (h : v.ContainsNode) :
    (RawValue.list items).ContainsNode := by
  obtain ⟨r, hr⟩ := h
  exact ⟨r, .head (.item hv) hr⟩

mutual

theorem containsNode_of_nodeCount_ne_zero : ∀ v : RawValue, v.nodeCount ≠ 0 → v.ContainsNode
  | .null, h => absurd rfl h
  | .scalar _, h => absurd rfl h
  | .node kind fields, _ => ⟨⟨kind, fields⟩, .refl⟩
  | .list items, h => by
    obtain ⟨v, hv, hnode⟩ := exists_containsNode_of_nodeCountItems_ne_zero items h
    exact hnode.of_item hv

theorem exists_containsNode_of_nodeCountItems_ne_zero :
    ∀ items : List RawValue, nodeCountItems items ≠ 0 → ∃ v ∈ items, v.ContainsNode
  | [], h => absurd rfl h
  | v :: rest, h => by
    by_cases hv : v.nodeCount = 0
    · have hrest : nodeCountItems rest ≠ 0 := by
        rwa [nodeCountItems, hv, Nat.zero_add] at h
      obtain ⟨w, hw, hnode⟩ := exists_containsNode_of_nodeCountItems_ne_zero rest hrest
      exact ⟨w, List.mem_cons_of_mem _ hw, hnode⟩
    · exact ⟨v, List.mem_cons_self, containsNode_of_nodeCount_ne_zero v hv⟩

end

/-- A value contains a node through lists exactly if nodes are counted in it. -/
theorem containsNode_iff : v.ContainsNode ↔ v.nodeCount ≠ 0 := by
  refine ⟨fun h => ?_, containsNode_of_nodeCount_ne_zero v⟩
  obtain ⟨r, hr⟩ := h
  have hle : r.toValue.nodeCount ≤ v.nodeCount :=
    nodeCount_le (ReflTransGen.mono HasItem.hasPart _ _ hr)
  rw [RawNode.toValue, nodeCount] at hle
  omega

/-! ## Lists in lists -/

section

variable {inner rest : List RawValue} {kind : String} {fields : List (String × RawValue)}

theorem hasInnerList_node_iff :
    (RawValue.node kind fields).HasInnerList inner ↔ ∃ f ∈ fields, f.2.HasInnerList inner := by
  constructor
  · intro ⟨outer, hway, hinner⟩
    rcases hway.cases_head with heq | ⟨v, hpart, hway⟩
    · cases heq
    · cases hpart with
      | field hv => exact ⟨_, hv, outer, hway, hinner⟩
  · intro ⟨f, hf, outer, hway, hinner⟩
    exact ⟨outer, .head (.field hf) hway, hinner⟩

theorem hasInnerList_list_iff {items : List RawValue} :
    (RawValue.list items).HasInnerList inner ↔
      ∃ v ∈ items, v = .list inner ∨ v.HasInnerList inner := by
  constructor
  · intro ⟨outer, hway, hinner⟩
    rcases hway.cases_head with heq | ⟨v, hpart, hway⟩
    · cases heq
      exact ⟨.list inner, hinner, .inl rfl⟩
    · cases hpart with
      | item hv => exact ⟨v, hv, .inr ⟨outer, hway, hinner⟩⟩
  · rintro ⟨v, hv, rfl | ⟨outer, hway, hinner⟩⟩
    · exact ⟨items, .refl, hv⟩
    · exact ⟨outer, .head (.item hv) hway, hinner⟩

theorem keepsNodes_node_iff :
    (RawValue.node kind fields).KeepsNodes ↔ ∀ f ∈ fields, f.2.KeepsNodes := by
  simp only [KeepsNodes, hasInnerList_node_iff]
  exact ⟨fun h f hf inner hinner => h inner ⟨f, hf, hinner⟩,
    fun h inner ⟨f, hf, hinner⟩ => h f hf inner hinner⟩

theorem keepsNodes_cons_iff :
    (RawValue.list (v :: rest)).KeepsNodes ↔
      (∀ inner, v = .list inner → ¬ v.ContainsNode) ∧ v.KeepsNodes ∧
        (RawValue.list rest).KeepsNodes := by
  simp only [KeepsNodes, hasInnerList_list_iff, List.mem_cons]
  constructor
  · intro h
    refine ⟨?_, fun inner hinner => h inner ⟨v, .inl rfl, .inr hinner⟩, ?_⟩
    · rintro inner rfl
      exact h inner ⟨_, .inl rfl, .inl rfl⟩
    · rintro inner ⟨w, hw, hinner⟩
      exact h inner ⟨w, .inr hw, hinner⟩
  · rintro ⟨hself, hv, hrest⟩ inner ⟨w, rfl | hw, hinner⟩
    · rcases hinner with rfl | hinner
      · exact hself inner rfl
      · exact hv inner hinner
    · exact hrest inner ⟨w, hw, hinner⟩

/-- Where there are no nodes, none is in a list inside a list. -/
theorem keepsNodes_of_nodeCount_eq_zero (h : v.nodeCount = 0) : v.KeepsNodes := by
  intro inner ⟨outer, hway, hinner⟩ hnode
  have hle : (RawValue.list inner).nodeCount ≤ v.nodeCount :=
    nodeCount_le (hway.tail (.item hinner))
  exact containsNode_iff.1 hnode (by omega)

end

/-! ## What numbering meets -/

/-- An item that is no list is listed with all its nodes exactly if it keeps them. -/
theorem length_listingItems_cons_eq_iff {depth : Nat} {field : Option String} {item : RawValue}
    {rest : List RawValue} (noList : ∀ inner, item ≠ .list inner)
    (hitem : (item.listing depth field).length = item.nodeCount ↔ item.KeepsNodes)
    (hrest : (listingItems depth field rest).length = nodeCountItems rest ↔
      (RawValue.list rest).KeepsNodes) :
    (listingItems depth field (item :: rest)).length = nodeCountItems (item :: rest) ↔
      (RawValue.list (item :: rest)).KeepsNodes := by
  have hle := length_listing_le depth field item
  have hlerest := length_listingItems_le depth field rest
  rw [keepsNodes_cons_iff, ← hitem, ← hrest, listingItems, nodeCountItems, List.length_append]
  · constructor
    · intro h
      exact ⟨fun inner heq => absurd heq (noList inner), by omega, by omega⟩
    · intro ⟨_, h, h'⟩
      omega
  · exact noList

mutual

theorem length_listing_eq_iff (depth : Nat) (field : Option String) :
    ∀ v : RawValue, (v.listing depth field).length = v.nodeCount ↔ v.KeepsNodes
  | .null => iff_of_true rfl (keepsNodes_of_nodeCount_eq_zero rfl)
  | .scalar _ => iff_of_true rfl (keepsNodes_of_nodeCount_eq_zero rfl)
  | .node kind fields => by
    rw [keepsNodes_node_iff, ← length_listingFields_eq_iff (depth + 1) fields, listing, nodeCount,
      List.length_cons]
    omega
  | .list items => length_listingItems_eq_iff depth field items

theorem length_listingItems_eq_iff (depth : Nat) (field : Option String) :
    ∀ items : List RawValue,
      (listingItems depth field items).length = nodeCountItems items ↔
        (RawValue.list items).KeepsNodes
  | [] => iff_of_true rfl (keepsNodes_of_nodeCount_eq_zero rfl)
  | .list inner :: rest => by
    -- nothing of the inner list is listed, so there must be nothing to list
    have hle := length_listingItems_le depth field rest
    have hinner := containsNode_iff (v := .list inner)
    rw [keepsNodes_cons_iff, ← length_listingItems_eq_iff depth field rest, listingItems,
      nodeCountItems]
    constructor
    · intro h
      have hzero : (RawValue.list inner).nodeCount = 0 := by omega
      exact ⟨fun _ _ => by rw [hinner]; omega, keepsNodes_of_nodeCount_eq_zero hzero, by omega⟩
    · intro ⟨hnone, _, hrest⟩
      have hzero := hnone inner rfl
      rw [hinner, not_not] at hzero
      omega
  | .null :: rest =>
    length_listingItems_cons_eq_iff nofun (length_listing_eq_iff depth field .null)
      (length_listingItems_eq_iff depth field rest)
  | .scalar s :: rest =>
    length_listingItems_cons_eq_iff nofun (length_listing_eq_iff depth field (.scalar s))
      (length_listingItems_eq_iff depth field rest)
  | .node kind fields :: rest =>
    length_listingItems_cons_eq_iff nofun (length_listing_eq_iff depth field (.node kind fields))
      (length_listingItems_eq_iff depth field rest)

theorem length_listingFields_eq_iff (depth : Nat) :
    ∀ fields : List (String × RawValue),
      (listingFields depth fields).length = nodeCountFields fields ↔ ∀ f ∈ fields, f.2.KeepsNodes
  | [] => iff_of_true rfl nofun
  | (name, v) :: rest => by
    have hle := length_listing_le depth (some name) v
    have hlerest := length_listingFields_le depth rest
    rw [List.forall_mem_cons, ← length_listing_eq_iff depth (some name) v,
      ← length_listingFields_eq_iff depth rest, listingFields, nodeCountFields,
      List.length_append]
    omega

end

end RawValue

/-! ## Leaves -/

/-- The numbered node comes from the raw node, and the two agree on whether they have children. -/
structure RawNode.NumberedAs (r : RawNode) (t : NumberedNode) : Prop where
  numbered : ∃ n : Numbering, t = (n.node r).1
  leaf : r.hasNodeChildren = true ↔ t.childNodes ≠ []

theorem numberedAs_node (n : Numbering) (raw : RawNode) : raw.NumberedAs (n.node raw).1 where
  numbered := ⟨n, rfl⟩
  leaf := by
    have hlength := (forall₂_childNodes n raw).length_eq
    rw [← not_iff_not, Bool.not_eq_true, raw.hasNodeChildren_eq_false_iff, not_not,
      ← List.length_eq_zero_iff, hlength, List.length_eq_zero_iff]

theorem forall₂_numberEach (next : NodeId) (raws : List RawNode) :
    List.Forall₂ RawNode.NumberedAs raws (numberEach next raws) := by
  induction raws generalizing next with
  | nil => exact .nil
  | cons r rest ih => exact .cons (numberedAs_node ⟨next⟩ r) (ih (next + 1))

/-! ## All stages -/

/-- **The stages agree on sizes and leaves.** A numbered tree has at most the nodes of its raw tree,
and as many exactly if no list that is an item of a list contains a node, at whatever depth. A raw
node has node children exactly if its numbered node has a child that is a node; this holds of the
root and, one by one in pre-order, of all nodes below it that are numbered. The list of nodes and
the nested copy have the nodes of the numbered tree. None of this depends on where the numbering
stands, so the numbers may also run over their range. -/
theorem stages_agree (n : Numbering) (raw : RawNode) :
    let tree := (n.node raw).1
    tree.nodeCount ≤ raw.nodeCount ∧
    (tree.nodeCount = raw.nodeCount ↔ raw.toValue.KeepsNodes) ∧
    (raw.hasNodeChildren = true ↔ tree.childNodes ≠ []) ∧
    List.Forall₂ RawNode.NumberedAs raw.nodes tree.nodes ∧
    tree.flatten.nodes.length = tree.nodeCount ∧
    tree.flatten.hierarchy.nodeCount = tree.nodeCount := by
  intro tree
  have hcount : tree.nodeCount = raw.listing.length := n.nodeCount_node raw
  refine ⟨?_, ?_, (numberedAs_node n raw).leaf, ?_, ?_, tree.nodeCount_hierarchy⟩
  · rw [hcount]
    exact raw.length_listing_le
  · rw [hcount]
    exact RawValue.length_listing_eq_iff 0 none raw.toValue
  · rw [n.nodes_node]
    exact forall₂_numberEach n.assigned raw.nodes
  · rw [tree.nodes_flatten_perm.length_eq, Numbered.length_entries]
    rfl

/-- A node in an inner list is counted in the raw tree only. -/
example :
    let raw : RawNode :=
      ⟨"call", [("arguments", .list [.node "integer" [], .list [.node "name" []]])]⟩
    raw.nodeCount = 3 ∧ (Numbering.node {} raw).1.nodeCount = 2 := by decide

end SyntaxGraph
