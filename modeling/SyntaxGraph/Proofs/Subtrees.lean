import SyntaxGraph.Proofs.KeptNodes
import SyntaxGraph.Proofs.Search

/-!
# Every node below the root is made like the root

What holds of the root of every lowered tree holds of all its nodes: the nodes of a numbered tree
are those of the raw tree, numbered one by one (`Numbering.nodes_node`), and a node of a lowered
tree is the lowering of a node of the syntax tree (`exists_lowerAt_of_mem_nodes`).
-/

namespace SyntaxGraph

/-! ## Nodes of raw values -/

/-- The nodes in a value that numbering meets, in pre-order. -/
def RawValue.nodes (v : RawValue) : List RawNode := (v.listing 0 none).map (·.item)

def RawNode.nodes (n : RawNode) : List RawNode := n.toValue.nodes

theorem RawNode.nodes_eq (n : RawNode) : n.nodes = n :: n.fields.flatMap fun f => f.2.nodes := by
  rw [nodes, RawValue.nodes, toValue, RawValue.listing, List.map_cons,
    RawValue.map_item_listingFields]
  rfl

namespace RawValue

theorem nodes_list_cons (item : RawValue) (rest : List RawValue) :
    (RawValue.list (item :: rest)).nodes = (RawValue.list [item]).nodes ++ (list rest).nodes := by
  simp only [nodes, listing]
  rw [listingItems_cons, List.map_append]

theorem nodes_list_node (kind : String) (fields : List (String × RawValue)) :
    (RawValue.list [.node kind fields]).nodes = RawNode.nodes ⟨kind, fields⟩ := by
  simp [nodes, RawNode.nodes, RawNode.toValue, listing, listingItems]

theorem mem_nodes_list {items : List RawValue} {r : RawNode} (h : r ∈ (list items).nodes) :
    ∃ item ∈ items, r ∈ item.nodes := by
  induction items with
  | nil => exact absurd h List.not_mem_nil
  | cons item rest ih =>
    rw [nodes_list_cons, List.mem_append] at h
    rcases h with h | h
    · refine ⟨item, List.mem_cons_self, ?_⟩
      cases item with
      | node kind fields => simpa [nodes, listing, listingItems] using h
      | null | scalar | list => exact absurd h List.not_mem_nil
    · obtain ⟨other, hother, hr⟩ := ih h
      exact ⟨other, List.mem_cons_of_mem _ hother, hr⟩

theorem IsBare.nodes_eq_nil {v : RawValue} (h : v.IsBare) : v.nodes = [] := by
  cases h <;> rfl

end RawValue

/-- A field has no nodes but those of the values placed in it. -/
theorem mem_nodes_fieldValue {shape : FieldShape} {values : List RawValue} {r : RawNode}
    (h : r ∈ (fieldValue shape values).nodes) : ∃ v ∈ values, r ∈ v.nodes := by
  match shape, values with
  | .scalar, _ => exact absurd h List.not_mem_nil
  | .child, [] => exact absurd h List.not_mem_nil
  | .child, [v] => exact ⟨v, List.mem_cons_self, h⟩
  | .child, _ :: _ :: _ => exact RawValue.mem_nodes_list h
  | .childList, _ => exact RawValue.mem_nodes_list h

/-! ## Nodes of numbered trees -/

namespace Numbered

mutual

/-- The nodes of a subtree with their children, in pre-order. -/
def nodes : Numbered → List NumberedNode
  | .node entry children => ⟨entry, children⟩ :: nodesList children
  | .value _ => []

def nodesList : List (String × Numbered) → List NumberedNode
  | [] => []
  | (_, child) :: rest => child.nodes ++ nodesList rest

end

theorem nodesList_append (a b : List (String × Numbered)) :
    nodesList (a ++ b) = nodesList a ++ nodesList b := by
  induction a with
  | nil => rfl
  | cons c rest ih =>
    obtain ⟨field, child⟩ := c
    rw [List.cons_append, nodesList, nodesList, ih, List.append_assoc]

mutual

theorem map_entry_nodes : ∀ c : Numbered, c.nodes.map (·.entry) = c.entries
  | .node entry children => by
    rw [nodes, entries, List.map_cons, map_entry_nodesList children]
  | .value _ => rfl

theorem map_entry_nodesList :
    ∀ children : List (String × Numbered),
      (nodesList children).map (·.entry) = entriesList children
  | [] => rfl
  | (_, child) :: rest => by
    rw [nodesList, entriesList, List.map_append, map_entry_nodes child, map_entry_nodesList rest]

end

end Numbered

def NumberedNode.nodes (n : NumberedNode) : List NumberedNode := n.toNumbered.nodes

/-- Raw nodes numbered one by one, each with what is below it, from one number after the other. -/
def numberEach (next : NodeId) : List RawNode → List NumberedNode
  | [] => []
  | r :: rest => (Numbering.node ⟨next⟩ r).1 :: numberEach (next + 1) rest

theorem numberEach_append (next : NodeId) (a b : List RawNode) :
    numberEach next (a ++ b) =
      numberEach next a ++ numberEach (next + UInt32.ofNat a.length) b := by
  induction a generalizing next with
  | nil => simp [numberEach]
  | cons r rest ih =>
    rw [List.cons_append, numberEach, numberEach, ih, List.length_cons, add_one_add_ofNat,
      List.cons_append]

theorem RawValue.length_listing (depth : Nat) (field : Option String) (v : RawValue) :
    (v.listing depth field).length = v.nodes.length := by
  rw [nodes, ← map_item_listing depth field, List.length_map]

/-- A node is numbered before its fields. -/
theorem nodesList_node {next : NodeId} {kind : String} {fields : List (String × RawValue)}
    (below : Numbered.nodesList (numberFields (next + 1) fields).1 =
      numberEach (next + 1) (fields.flatMap fun f => f.2.nodes)) (field : String) :
    Numbered.nodesList (numberField next field (.node kind fields)).1 =
      numberEach next (RawNode.nodes ⟨kind, fields⟩) := by
  show Numbered.nodes (.node ⟨next, kind, attributesOf fields⟩
    (numberFields (next + 1) fields).1) ++ [] = _
  rw [List.append_nil, Numbered.nodes, below, RawNode.nodes_eq]
  rfl

mutual

theorem nodesList_numberField (next : NodeId) (field : String) :
    ∀ value : RawValue,
      Numbered.nodesList (numberField next field value).1 = numberEach next value.nodes
  | .null => rfl
  | .scalar _ => rfl
  | .node _ fields => nodesList_node (nodesList_numberFields (next + 1) fields) field
  | .list items => nodesList_numberItems next field items

theorem nodesList_numberItem (next : NodeId) (field : String) :
    ∀ item : RawValue, Numbered.nodesList (numberItem next field item).1 =
      numberEach next (RawValue.list [item]).nodes
  | .null => rfl
  | .scalar _ => rfl
  | .node kind fields => by
    rw [RawValue.nodes_list_node]
    exact nodesList_node (nodesList_numberFields (next + 1) fields) field
  | .list _ => rfl

theorem nodesList_numberItems (next : NodeId) (field : String) :
    ∀ items : List RawValue, Numbered.nodesList (numberItems next field items).1 =
      numberEach next (RawValue.list items).nodes
  | [] => rfl
  | item :: rest => by
    have after := (stamps_numberItem next 0 field item).after
    rw [← RawValue.listing, RawValue.length_listing] at after
    rw [RawValue.nodes_list_cons, numberEach_append, ← after,
      ← nodesList_numberItem next field item, ← nodesList_numberItems _ field rest,
      ← Numbered.nodesList_append]
    rfl

theorem nodesList_numberFields (next : NodeId) :
    ∀ fields : List (String × RawValue), Numbered.nodesList (numberFields next fields).1 =
      numberEach next (fields.flatMap fun f => f.2.nodes)
  | [] => rfl
  | (field, value) :: rest => by
    have after := (stamps_numberField next 0 field value).after
    rw [RawValue.length_listing] at after
    rw [List.flatMap_cons, numberEach_append, ← after, ← nodesList_numberField next field value,
      ← nodesList_numberFields _ rest, ← Numbered.nodesList_append]
    rfl

end

/-- **The nodes of a numbered tree are those of its raw tree, numbered one by one.** -/
theorem Numbering.nodes_node (n : Numbering) (raw : RawNode) :
    (n.node raw).1.nodes = numberEach n.assigned raw.nodes := by
  have h := nodesList_numberField n.assigned "" raw.toValue
  show Numbered.nodes _ = _
  rw [← List.append_nil (Numbered.nodes _)]
  exact h

/-- The node is what numbering made of one of the raw nodes. -/
def NumberedNode.NumbersOneOf (x : NumberedNode) (raws : List RawNode) : Prop :=
  ∃ r ∈ raws, ∃ n : Numbering, x = (n.node r).1

theorem numbersOneOf_of_mem_numberEach {next : NodeId} {raws : List RawNode} {x : NumberedNode}
    (h : x ∈ numberEach next raws) : x.NumbersOneOf raws := by
  induction raws generalizing next with
  | nil => exact absurd h List.not_mem_nil
  | cons r rest ih =>
    rcases List.mem_cons.1 h with hx | hx
    · exact ⟨r, List.mem_cons_self, ⟨next⟩, hx⟩
    · obtain ⟨r', hr, hn⟩ := ih hx
      exact ⟨r', List.mem_cons_of_mem _ hr, hn⟩

/-- A node of a numbered tree is the numbering of a node of its raw tree. -/
theorem Numbering.numbersOneOf_of_mem_nodes {n : Numbering} {raw : RawNode} {x : NumberedNode}
    (h : x ∈ (n.node raw).1.nodes) : x.NumbersOneOf raw.nodes :=
  numbersOneOf_of_mem_numberEach (n.nodes_node raw ▸ h)

/-! ## Nodes of lowered trees -/

theorem SyntaxNode.mem_preorder_trans {n m k : SyntaxNode} (hm : m ∈ n.preorder)
    (hk : k ∈ m.preorder) : k ∈ n.preorder := by
  induction n using SyntaxNode.induct with
  | step n ih =>
    rw [preorder_eq, List.mem_cons, preorderList_eq_flatMap] at hm
    rcases hm with rfl | hm
    · exact hk
    · obtain ⟨c, hc, hm⟩ := List.mem_flatMap.1 hm
      exact mem_preorder_of_child hc (ih c hc hm)

namespace Lowering

variable {l : Lowering} {n : SyntaxNode} {r raw : RawNode}

/-- What was placed under a field was placed by a child: its text, or what it was lowered to. -/
theorem Places.exists_child {schema : Option NodeSchema} {R : SyntaxNode → RawNode → Prop}
    {children : List SyntaxNode} {placed : List Placed} {p : Placed}
    (h : Places l schema R children placed) (hp : p ∈ placed) : ∃ c ∈ children,
      (placement l.options schema c.label = .token p.field ∧ p.shape = .scalar ∧
        ∃ text, p.value = .scalar (.str text)) ∨
      (placement l.options schema c.label = .kept p.field p.shape ∧
        ∃ raw, R c raw ∧ p.value = raw.toValue) := by
  induction h with
  | nil => exact absurd hp List.not_mem_nil
  | ignored _ _ ih =>
    obtain ⟨c, hc, hplace⟩ := ih hp
    exact ⟨c, List.mem_cons_of_mem _ hc, hplace⟩
  | @token child _ _ _ text hplace _ _ ih =>
    rcases List.mem_cons.1 hp with rfl | hp
    · exact ⟨child, List.mem_cons_self, .inl ⟨hplace, rfl, text, rfl⟩⟩
    · obtain ⟨c, hc, hplace⟩ := ih hp
      exact ⟨c, List.mem_cons_of_mem _ hc, hplace⟩
  | @kept child _ _ _ _ raw hplace hR _ ih =>
    rcases List.mem_cons.1 hp with rfl | hp
    · exact ⟨child, List.mem_cons_self, .inr ⟨hplace, raw, hR, rfl⟩⟩
    · obtain ⟨c, hc, hplace⟩ := ih hp
      exact ⟨c, List.mem_cons_of_mem _ hc, hplace⟩

/-- A node below a lowered node is one that a child of it was lowered to, or is below that. -/
theorem mem_nodes_of_assemble {R : SyntaxNode → RawNode → Prop} {placed : List Placed}
    (hplaced : Places l (l.schema.node? n.kind) R n.children placed)
    (hraw : l.assemble n placed = .ok raw) (hr : r ∈ raw.nodes) :
    r = raw ∨ ∃ c ∈ n.children, ∃ below, R c below ∧ r ∈ below.nodes := by
  obtain ⟨-, added, hfields, hadded⟩ := fields_of_assemble hraw
  rw [RawNode.nodes_eq, List.mem_cons, hfields, List.flatMap_append, List.mem_append] at hr
  rcases hr with rfl | hr | hr
  · exact .inl rfl
  · obtain ⟨f, hf, hr⟩ := List.mem_flatMap.1 hr
    obtain ⟨name, -, rfl⟩ := List.mem_map.1 hf
    obtain ⟨v, hv, hr⟩ := mem_nodes_fieldValue hr
    obtain ⟨p, hp, rfl⟩ := List.mem_map.1 hv
    obtain ⟨c, hc, ⟨-, -, text, htext⟩ | ⟨-, below, hbelow, hvalue⟩⟩ :=
      hplaced.exists_child (List.mem_filter.1 hp).1
    · rw [htext] at hr
      exact absurd hr List.not_mem_nil
    · rw [hvalue] at hr
      exact .inr ⟨c, hc, below, hbelow, hr⟩
  · obtain ⟨f, hf, hr⟩ := List.mem_flatMap.1 hr
    rw [(hadded f hf).nodes_eq_nil] at hr
    exact absurd hr List.not_mem_nil

/-- **A node of a lowered tree is the lowering of a node of the syntax tree.** -/
theorem exists_lowerAt_of_mem_nodes {depth : Nat} (h : l.lowerAt depth n = .ok raw)
    (hr : r ∈ raw.nodes) : ∃ m ∈ n.preorder, ∃ level, l.lowerAt level m = .ok r := by
  induction n using SyntaxNode.induct generalizing depth raw with
  | step n ih =>
    obtain ⟨-, placed, hplaced, hraw⟩ := lowerAt_eq_ok_iff.1 h
    rcases mem_nodes_of_assemble hplaced hraw hr with rfl | ⟨c, hc, below, hbelow, hr⟩
    · exact ⟨n, n.mem_preorder_self, depth, h⟩
    · obtain ⟨m, hm, hlevel⟩ := ih c hc hbelow hr
      exact ⟨m, SyntaxNode.mem_preorder_of_child hc hm, hlevel⟩

end Lowering

end SyntaxGraph
