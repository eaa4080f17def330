import Mathlib.Data.List.Forall2
import SyntaxGraph.Proofs.Deletion
import SyntaxGraph.Proofs.Filing
import SyntaxGraph.Proofs.NestedView

/-!
# The nodes that a raw node holds

The nodes in the fields of a raw node, in the order of the fields and each with the name of its
field, are what the node *holds*. Numbering keeps them: they are the child nodes of the numbered
node, one by one (`forall₂_childNodes`), and so the children of its nested view
(`forall₂_childList`). Value leaves and the items of inner lists are in neither listing. So a node
that is a leaf while it is raw is a leaf in the view as well (`children_eq_none_iff`).

A field name may occur twice among the fields of a raw node. On a node that was put together from
placements only the first field of a name can hold a node (`heldChildren_of_assemble`).
-/

namespace SyntaxGraph

/-- Listings that are related item by item to a third are related to each other. -/
theorem forall₂_comp {α β γ : Type} {R : α → β → Prop} {S : β → γ → Prop} {T : α → γ → Prop}
    (comp : ∀ a b c, R a b → S b c → T a c) {as : List α} {bs : List β} {cs : List γ}
    (h : List.Forall₂ R as bs) (h' : List.Forall₂ S bs cs) : List.Forall₂ T as cs :=
  (exists_forall₂_comp_iff.1 ⟨bs, h, h'⟩).imp fun a c ⟨b, hR, hS⟩ => comp a b c hR hS

/-- The nodes in the fields of a node, each with the name of its field. -/
def RawNode.heldChildren (r : RawNode) : List (String × RawNode) :=
  r.fields.flatMap fun f => f.2.heldNodes.map (f.1, ·)

/-! ## Leaves -/

theorem RawValue.holdsNode_eq_false_iff (v : RawValue) :
    v.holdsNode = false ↔ v.heldNodes = [] := by
  cases v with
  | null => exact iff_of_true rfl rfl
  | scalar s => exact iff_of_true rfl rfl
  | node kind fields => exact iff_of_false nofun nofun
  | list items => simp [holdsNode, heldNodes, isNode, List.filterMap_eq_nil_iff]

theorem RawNode.hasNodeChildren_eq_false_iff (r : RawNode) :
    r.hasNodeChildren = false ↔ r.heldChildren = [] := by
  simp [hasNodeChildren, heldChildren, List.flatMap_eq_nil_iff, RawValue.holdsNode_eq_false_iff]

/-- Fields that hold no node do not count. -/
theorem RawNode.hasNodeChildren_append {kind : String} {fields added : List (String × RawValue)}
    (bare : ∀ f ∈ added, f.2.IsBare) :
    hasNodeChildren ⟨kind, fields ++ added⟩ = hasNodeChildren ⟨kind, fields⟩ := by
  have hnone : (added.any fun f => f.2.holdsNode) = false := by
    refine List.any_eq_false.2 fun f hf => ?_
    rw [Bool.not_eq_true, RawValue.holdsNode_eq_false_iff]
    exact heldNodes_of_isBare (bare f hf)
  rw [hasNodeChildren, List.any_append, hnone, Bool.or_false]
  rfl

/-! ## Numbering -/

/-- The child shows the held node, under the same name and with numbers. -/
def Numbers (held : String × RawNode) (child : String × NumberedNode) : Prop :=
  child.1 = held.1 ∧ ∃ n : Numbering, child.2 = (n.node held.2).1

/-- The children that are nodes, each with its field. -/
def childNodesOf (children : List (String × Numbered)) : List (String × NumberedNode) :=
  children.filterMap fun (field, child) => child.asNode?.map (field, ·)

theorem numbers_node (next : NodeId) (field kind : String) (fields : List (String × RawValue)) :
    List.Forall₂ Numbers [(field, ⟨kind, fields⟩)]
      (childNodesOf (numberItem next field (.node kind fields)).1) :=
  .cons ⟨rfl, ⟨next⟩, rfl⟩ .nil

theorem numbers_numberItems (next : NodeId) (field : String) (items : List RawValue) :
    List.Forall₂ Numbers ((items.filterMap RawValue.asNode?).map (field, ·))
      (childNodesOf (numberItems next field items).1) := by
  induction items generalizing next with
  | nil => exact .nil
  | cons item rest ih =>
    have hrest := ih (numberItem next field item).2
    rw [numberItems_cons, childNodesOf, List.filterMap_append]
    cases item with
    | null => exact hrest
    | scalar s => exact hrest
    | node kind fields => exact List.rel_append (numbers_node next field kind fields) hrest
    | list items => exact hrest

theorem numbers_numberField (next : NodeId) (field : String) (value : RawValue) :
    List.Forall₂ Numbers (value.heldNodes.map (field, ·))
      (childNodesOf (numberField next field value).1) := by
  cases value with
  | null => exact .nil
  | scalar s => exact .nil
  | node kind fields => exact numbers_node next field kind fields
  | list items => exact numbers_numberItems next field items

theorem numbers_numberFields (next : NodeId) (fields : List (String × RawValue)) :
    List.Forall₂ Numbers (fields.flatMap fun f => f.2.heldNodes.map (f.1, ·))
      (childNodesOf (numberFields next fields).1) := by
  induction fields generalizing next with
  | nil => exact .nil
  | cons f rest ih =>
    obtain ⟨field, value⟩ := f
    rw [numberFields_cons, childNodesOf, List.filterMap_append, List.flatMap_cons]
    exact List.rel_append (numbers_numberField next field value) (ih _)

/-- **The child nodes of a numbered node are the nodes that the raw node holds.** -/
theorem forall₂_childNodes (n : Numbering) (raw : RawNode) :
    List.Forall₂ Numbers raw.heldChildren (n.node raw).1.childNodes :=
  numbers_numberFields (n.assigned + 1) raw.fields

/-! ## Nested views -/

section

variable {n : Numbering} {raw : RawNode} {field : Option String} {h : Hierarchy}

/-- The view shows the held node, under the same name. -/
def Views (held : String × RawNode) (view : Hierarchy) : Prop :=
  view.field = some held.1 ∧ ∃ n : Numbering, Depicts (some held.1) (n.node held.2).1 view

/-- **The children of the view of a node are views of the nodes that it holds.** -/
theorem forall₂_childList (d : Depicts field (n.node raw).1 h) :
    List.Forall₂ Views raw.heldChildren h.childList := by
  obtain ⟨-, -, -, children⟩ := d
  refine forall₂_comp ?_ (forall₂_childNodes n raw) children
  rintro held ⟨name, child⟩ view ⟨hname, k, hchild⟩ d
  obtain rfl : name = held.1 := hname
  obtain rfl : child = (k.node held.2).1 := hchild
  exact ⟨d.field_eq, k, d⟩

/-- A raw node without nodes in its fields is a node without children in the view, and vice
versa. -/
theorem children_eq_none_iff (d : Depicts field (n.node raw).1 h) :
    h.children = none ↔ raw.hasNodeChildren = false := by
  have hlength := (forall₂_childList d).length_eq
  rw [d.children_eq, someUnlessEmpty_eq_none, raw.hasNodeChildren_eq_false_iff,
    ← List.length_eq_zero_iff, ← List.length_eq_zero_iff, hlength]

end

/-! ## Nodes by field -/

theorem heldChildren_filter (fields : List (String × RawValue)) (name : String) :
    ((fields.flatMap fun f => f.2.heldNodes.map (f.1, ·)).filter (·.1 = name)).map (·.2) =
      (fields.filter (·.1 = name)).flatMap fun f => f.2.heldNodes := by
  induction fields with
  | nil => rfl
  | cons f rest ih =>
    rw [List.flatMap_cons, List.filter_append, List.map_append, ih, List.filter_map]
    by_cases hname : f.1 = name
    · simp [hname, Function.comp_def]
    · simp [hname, Function.comp_def]

/-- A node that was put together holds nodes in the first field of a name only. -/
theorem heldChildren_of_assemble {l : Lowering} {n : SyntaxNode} {placed : List Placed}
    {raw : RawNode} (h : l.assemble n placed = .ok raw) (name : String) :
    (raw.heldChildren.filter (·.1 = name)).map (·.2) = raw.nodesIn name := by
  obtain ⟨-, added, hfields, hadded⟩ := Lowering.fields_of_assemble h
  have hbare : ((added.filter (·.1 = name)).flatMap fun f => f.2.heldNodes) = [] :=
    List.flatMap_eq_nil_iff.2 fun f hf => heldNodes_of_isBare (hadded f (List.mem_filter.1 hf).1)
  have distinct : ((placedFields placed).map (·.1)).Nodup := by
    rw [map_fst_placedFields]
    exact nodup_eraseDups _
  rw [RawNode.heldChildren, heldChildren_filter, RawNode.nodesIn, RawNode.field?, hfields,
    List.filter_append, List.flatMap_append, hbare, List.append_nil, List.lookup_append]
  cases hlookup : (placedFields placed).lookup name with
  | none =>
    have hnone : (placedFields placed).filter (·.1 = name) = [] := by
      refine List.filter_eq_nil_iff.2 fun f hf hname => ?_
      have hother := List.lookup_eq_none_iff.1 hlookup f hf
      rw [of_decide_eq_true hname] at hother
      simp at hother
    rw [hnone, Option.none_or, lookup_heldNodes_of_isBare hadded]
    rfl
  | some v =>
    have hmem := (lookup_eq_some_iff_mem distinct).1 hlookup
    rw [filter_key_eq_singleton distinct hmem, List.flatMap_singleton]
    rfl

end SyntaxGraph
