import SyntaxGraph.Proofs.Numbering
import SyntaxGraph.Proofs.Options

/-!
# A lowered node has every field once

The fields of a lowered node come from four places: what was placed, the fields of the schema that
were left empty, the text of a leaf, and the positions. Each adds only names that are not there yet,
as long as the names of the positions are used by nothing else (`nodup_of_assemble`). A node below
another is lowered like the root, so this holds of every node of a lowered tree.

With no name twice, making attributes of the fields loses nothing: the attributes of a numbered node
are exactly the fields of its raw node that hold nothing or a scalar (`shownBy_entry`).

`RawValue.everyNode` lists the nodes of a raw tree at any depth, also those in a list inside a list,
which numbering drops. There is no such list in a lowered tree (`nodes_eq_everyNode_of_lowerAt`).

Main statement: `lowered_fieldNames`.
-/

namespace SyntaxGraph

/-! ## Every node of a raw tree -/

namespace RawValue

mutual

/-- The nodes in a value at any depth, in pre-order. -/
def everyNode : RawValue → List RawNode
  | .node kind fields => ⟨kind, fields⟩ :: everyNodeFields fields
  | .list items => everyNodeItems items
  | _ => []

/-- The nodes in the items of a list. -/
def everyNodeItems : List RawValue → List RawNode
  | [] => []
  | item :: rest => item.everyNode ++ everyNodeItems rest

/-- The nodes in the fields of a node. -/
def everyNodeFields : List (String × RawValue) → List RawNode
  | [] => []
  | (_, value) :: rest => value.everyNode ++ everyNodeFields rest

end

theorem everyNodeFields_eq_flatMap (fields : List (String × RawValue)) :
    everyNodeFields fields = fields.flatMap fun f => f.2.everyNode := by
  induction fields with
  | nil => rfl
  | cons f rest ih => rw [everyNodeFields, ih, List.flatMap_cons]

/-- Numbering meets every node of the value, and the value is no list. -/
structure Plain (v : RawValue) : Prop where
  noList : ∀ items, v ≠ .list items
  nodes_eq : v.nodes = v.everyNode

theorem Plain.scalar (s : Scalar) : (RawValue.scalar s).Plain := ⟨nofun, rfl⟩

/-- Numbering meets every node in a list without lists among its items. -/
theorem nodes_list_eq_everyNode {items : List RawValue} (plain : ∀ v ∈ items, v.Plain) :
    (RawValue.list items).nodes = (RawValue.list items).everyNode := by
  rw [everyNode]
  induction items with
  | nil => rfl
  | cons item rest ih =>
    obtain ⟨hitem, hrest⟩ := List.forall_mem_cons.1 plain
    have hnodes : (RawValue.list [item]).nodes = item.nodes := by
      cases item with
      | null | scalar => rfl
      | node kind fields => exact nodes_list_node kind fields
      | list items => exact absurd rfl (hitem.noList items)
    rw [nodes_list_cons, everyNodeItems, ih hrest, hnodes, hitem.nodes_eq]

theorem nodes_fieldValue_eq_everyNode (shape : FieldShape) {values : List RawValue}
    (plain : ∀ v ∈ values, v.Plain) :
    (fieldValue shape values).nodes = (fieldValue shape values).everyNode := by
  match shape, values with
  | .scalar, _ => rfl
  | .child, [] => exact nodes_list_eq_everyNode plain
  | .child, [v] => exact (plain v List.mem_cons_self).nodes_eq
  | .child, _ :: _ :: _ => exact nodes_list_eq_everyNode plain
  | .childList, _ => exact nodes_list_eq_everyNode plain

theorem IsBare.nodes_eq_everyNode {v : RawValue} (h : v.IsBare) : v.nodes = v.everyNode := by
  cases h <;> rfl

end RawValue

def RawNode.everyNode (n : RawNode) : List RawNode := n.toValue.everyNode

theorem RawNode.everyNode_eq (n : RawNode) :
    n.everyNode = n :: n.fields.flatMap fun f => f.2.everyNode := by
  rw [everyNode, toValue, RawValue.everyNode, RawValue.everyNodeFields_eq_flatMap]

theorem RawNode.nodes_eq_everyNode {n : RawNode}
    (h : ∀ f ∈ n.fields, f.2.nodes = f.2.everyNode) : n.nodes = n.everyNode := by
  rw [nodes_eq, everyNode_eq, List.flatMap_congr h]

namespace Lowering

variable {l : Lowering} {n : SyntaxNode} {raw : RawNode} {placed : List Placed}

/-- **Numbering drops no node of a lowered tree.** -/
theorem nodes_eq_everyNode_of_lowerAt {depth : Nat} (h : l.lowerAt depth n = .ok raw) :
    raw.nodes = raw.everyNode := by
  refine lowerAt_induct (P := fun _ raw => raw.nodes = raw.everyNode) ?_ depth n raw h
  intro n placed raw hplaced hraw
  have plain : ∀ p ∈ placed, p.value.Plain := by
    intro p hp
    obtain ⟨c, -, ⟨-, -, text, hvalue⟩ | ⟨-, below, hbelow, hvalue⟩⟩ := hplaced.exists_child hp
    · rw [hvalue]
      exact .scalar _
    · rw [hvalue]
      exact ⟨nofun, hbelow⟩
  obtain ⟨-, added, hfields, hadded⟩ := fields_of_assemble hraw
  refine RawNode.nodes_eq_everyNode fun f hf => ?_
  rw [hfields, List.mem_append] at hf
  rcases hf with hf | hf
  · obtain ⟨name, -, rfl⟩ := List.mem_map.1 hf
    refine RawValue.nodes_fieldValue_eq_everyNode _ fun v hv => ?_
    obtain ⟨p, hp, rfl⟩ := List.mem_map.1 hv
    exact plain p (List.mem_filter.1 hp).1
  · exact (hadded f hf).nodes_eq_everyNode

end Lowering

/-! ## Names of the fields of a node -/

theorem nodup_placedFields (placed : List Placed) : ((placedFields placed).map (·.1)).Nodup := by
  rw [map_fst_placedFields]
  exact nodup_eraseDups _

/-- What the schema adds are those of its fields in which nothing was placed. -/
theorem map_fst_emptyFields (s : NodeSchema) (placed : List Placed) :
    (emptyFields (some s) placed).map (·.1) =
      s.fields.keys.filter fun name => !placed.any (·.field = name) := by
  rw [emptyFields, SortedMap.keys, List.filter_map, List.map_map]
  rfl

theorem nodup_ownFields (l : Lowering) (kind : String) (placed : List Placed) :
    ((l.ownFields kind placed).map (·.1)).Nodup := by
  rw [Lowering.ownFields, List.map_append, List.nodup_append]
  cases l.schema.node? kind with
  | none => exact ⟨nodup_placedFields placed, .nil, fun _ _ _ h => absurd h List.not_mem_nil⟩
  | some s =>
    rw [map_fst_emptyFields]
    refine ⟨nodup_placedFields placed, s.fields.nodup_keys.filter _, ?_⟩
    intro name hname other hother heq
    subst heq
    have hnone := (List.mem_filter.1 hother).2
    rw [any_field_eq_true_iff.2 (mem_map_fst_placedFields.1 hname)] at hnone
    cases hnone

theorem mem_ownFields_of_schema {l : Lowering} {kind name : String} {s : NodeSchema}
    (hs : l.schema.node? kind = some s) (hname : name ∈ s.fields.keys) (placed : List Placed) :
    name ∈ (l.ownFields kind placed).map (·.1) := by
  rw [Lowering.ownFields, hs, List.map_append, List.mem_append, map_fst_emptyFields,
    mem_map_fst_placedFields]
  by_cases hplaced : name ∈ placed.map (·.field)
  · exact .inl hplaced
  · refine .inr (List.mem_filter.2 ⟨hname, ?_⟩)
    rw [Bool.not_eq_true', ← Bool.not_eq_true, any_field_eq_true_iff]
    exact hplaced

namespace Lowering

variable {l : Lowering} {n : SyntaxNode} {raw : RawNode} {placed : List Placed}

theorem nodup_append_leafText {label : NodeLabel} {text : List (String × RawValue)}
    (distinct : (raw.fields.map (·.1)).Nodup) (h : l.leafText label raw = .ok text) :
    ((raw.fields ++ text).map (·.1)).Nodup := by
  rcases leafText_cases h with hnil | ⟨hnone, t, htext⟩
  · rw [hnil, List.append_nil]
    exact distinct
  · rw [htext, List.map_append, List.nodup_append]
    refine ⟨distinct, List.nodup_singleton _, ?_⟩
    intro name hname other hother heq
    subst heq
    obtain ⟨f, hf, hfname⟩ := List.mem_map.1 hname
    have hne := List.lookup_eq_none_iff.1 hnone f hf
    rw [hfname, List.mem_singleton.1 hother] at hne
    simp at hne

/-- **A node has no field twice**, if nothing else has the name of a position. -/
theorem nodup_of_assemble {R : SyntaxNode → RawNode → Prop}
    (unused : l.options.includePositions = true → l.Unused positionNames n)
    (hplaced : Places l (l.schema.node? n.kind) R n.children placed)
    (hraw : l.assemble n placed = .ok raw) : (raw.fields.map (·.1)).Nodup := by
  obtain ⟨text, htext, rfl⟩ := assemble_eq_ok_iff.1 hraw
  have hfields := nodup_append_leafText (nodup_ownFields l n.kind placed) htext
  unfold positionsOf
  split
  · rename_i hpositions
    rw [List.map_append, List.nodup_append]
    refine ⟨hfields, by rw [map_fst_positionFields]; decide, ?_⟩
    intro name hname other hother heq
    subst heq
    rw [map_fst_positionFields] at hother
    obtain ⟨f, hf, rfl⟩ := List.mem_map.1 hname
    rcases List.mem_append.1 hf with hown | hadded
    · exact hplaced.name_not_mem (by decide) (by decide) (unused hpositions) f hown hother
    · rw [name_of_mem_leafText htext f hadded] at hother
      exact absurd hother (by decide)
  · rw [List.append_nil]
    exact hfields

end Lowering

/-! ## Attributes -/

/-- The field that an attribute comes from: nothing, or a scalar. -/
def RawValue.ofAttribute : Option Scalar → RawValue
  | none => .null
  | some s => .scalar s

theorem RawValue.attribute?_eq_some_iff {v : RawValue} {value : Option Scalar} :
    v.attribute? = some value ↔ v = .ofAttribute value := by
  cases v <;> cases value <;> simp [attribute?, ofAttribute]

/-- The entry shows the raw node: it has the kind of the node as its name, and as attributes exactly
the fields of the node that hold nothing or a scalar. -/
structure RawNode.ShownBy (r : RawNode) (e : Entry) : Prop where
  name : e.name = r.kind
  attributes : ∀ name value,
    e.attributes.get? name = some value ↔ (name, RawValue.ofAttribute value) ∈ r.fields

/-- Making attributes of fields loses nothing if no name occurs twice. -/
theorem get?_attributesOf_eq_some_iff {fields : List (String × RawValue)}
    (distinct : (fields.map (·.1)).Nodup) {name : String} {value : Option Scalar} :
    (attributesOf fields).get? name = some value ↔
      (name, RawValue.ofAttribute value) ∈ fields := by
  have hdistinct : ((fields.filterMap fun f => f.2.attribute?.map (f.1, ·)).map (·.1)).Nodup := by
    rw [List.Nodup, List.pairwise_map] at distinct ⊢
    refine List.Pairwise.filterMap _ ?_ distinct
    intro f g hne a ha b hb
    obtain ⟨x, -, rfl⟩ := Option.map_eq_some_iff.1 ha
    obtain ⟨y, -, rfl⟩ := Option.map_eq_some_iff.1 hb
    exact hne
  rw [attributesOf_eq, ← SortedMap.mem_entries_iff,
    (SortedMap.entries_ofList_perm hdistinct).mem_iff, List.mem_filterMap]
  constructor
  · intro h
    obtain ⟨f, hf, hattribute⟩ := h
    obtain ⟨x, hx, heq⟩ := Option.map_eq_some_iff.1 hattribute
    cases heq
    rw [← RawValue.attribute?_eq_some_iff.1 hx]
    exact hf
  · intro h
    refine ⟨_, h, ?_⟩
    rw [RawValue.attribute?_eq_some_iff.2 rfl]
    rfl

theorem shownBy_entry {r : RawNode} (distinct : (r.fields.map (·.1)).Nodup) (id : NodeId) :
    r.ShownBy (r.entry id) where
  name := rfl
  attributes := fun _ _ => get?_attributesOf_eq_some_iff distinct

/-! ## Lowered trees -/

/-- The places of the two listings are the same, and the entry shows the raw node. -/
structure Listed.Shows (x : Listed RawNode) (y : Listed Entry) : Prop where
  depth : y.depth = x.depth
  field : y.field = x.field
  item : x.item.ShownBy y.item

/-- Numbering shows raw nodes without a name twice as they are. -/
theorem forall₂_shows_stamp {raws : List (Listed RawNode)}
    (distinct : ∀ x ∈ raws, (x.item.fields.map (·.1)).Nodup) (next : NodeId) :
    List.Forall₂ Listed.Shows raws (stamp next raws) := by
  induction raws generalizing next with
  | nil => exact .nil
  | cons x rest ih =>
    obtain ⟨hx, hrest⟩ := List.forall_mem_cons.1 distinct
    exact .cons ⟨rfl, rfl, shownBy_entry hx next⟩ (ih hrest (next + 1))

/-- **Lowered nodes never repeat a field name**: if a tree is lowered and, with positions wanted,
neither the schema nor the tree uses one of their names, every node of the raw tree has every field
once, those of its schema among them. So numbering overwrites no attribute: it meets every node, at
the same place, and the attributes of the numbered node are exactly the fields of the raw node that
hold nothing or a scalar. -/
theorem lowered_fieldNames (l : Lowering) (root : SyntaxNode) (raw : RawNode)
    (unused : l.options.includePositions = true → l.Unused positionNames root)
    (h : l.lower root = .ok raw) :
    (∀ r ∈ raw.everyNode, (r.fields.map (·.1)).Nodup ∧
      ∀ s, l.schema.node? r.kind = some s → ∀ name ∈ s.fields.keys,
        name ∈ r.fields.map (·.1)) ∧
    raw.listing.map (·.item) = raw.everyNode ∧
    ∀ n : Numbering, List.Forall₂ Listed.Shows raw.listing (n.node raw).1.listing := by
  have hevery : raw.nodes = raw.everyNode := Lowering.nodes_eq_everyNode_of_lowerAt h
  have hnode : ∀ r ∈ raw.nodes, (r.fields.map (·.1)).Nodup ∧
      ∀ s, l.schema.node? r.kind = some s → ∀ name ∈ s.fields.keys,
        name ∈ r.fields.map (·.1) := by
    intro r hr
    obtain ⟨m, hm, level, hlevel⟩ := Lowering.exists_lowerAt_of_mem_nodes h hr
    obtain ⟨-, placed, hplaced, hassemble⟩ := Lowering.lowerAt_eq_ok_iff.1 hlevel
    refine ⟨Lowering.nodup_of_assemble (fun hpositions =>
      (unused hpositions).of_mem_preorder hm) hplaced hassemble, ?_⟩
    intro s hs name hname
    obtain ⟨text, -, rfl⟩ := Lowering.assemble_eq_ok_iff.1 hassemble
    rw [List.append_assoc, List.map_append, List.mem_append]
    exact .inl (mem_ownFields_of_schema hs hname placed)
  refine ⟨hevery ▸ hnode, hevery, fun n => ?_⟩
  rw [n.listing_node]
  exact forall₂_shows_stamp (fun x hx => (hnode x.item (List.mem_map_of_mem hx)).1) n.assigned

/-- A sum that breaks off after its first operand. -/
def brokenSum : SyntaxNode :=
  let node (kind : String) (field : Option String) (children : List SyntaxNode) : SyntaxNode :=
    ⟨⟨kind, true, false, false, false, false, field, 0, 1, ⟨0, 0⟩, ⟨0, 1⟩⟩, children⟩
  node "sum" none [node "identifier" (some "left") []]

def brokenNode : RawNode where
  kind := "sum"
  fields :=
    [("left", .node "identifier" (("text", .scalar (.str "a")) :: positionFields ⟨1, 0, 1, 1⟩)),
      ("operator", .null), ("right", .null)] ++ positionFields ⟨1, 0, 1, 1⟩

/-- With positions wanted, the empty fields of the schema and the positions are attributes. -/
theorem lowered_fieldNames_broken :
    (sumLowering.withPositions true).Unused positionNames brokenSum ∧
    (sumLowering.withPositions true).lower brokenSum = .ok brokenNode ∧
    (brokenNode.fields.map (·.1)).Nodup ∧
    ∀ n : Numbering, (n.node brokenNode).1.entry.attributes.get? "right" = some none ∧
      (n.node brokenNode).1.entry.attributes.get? "end_col" = some (some (.int 1)) := by
  have unused : (sumLowering.withPositions true).Unused positionNames brokenSum :=
    ⟨by decide, by decide⟩
  have lowered : (sumLowering.withPositions true).lower brokenSum = .ok brokenNode := by rfl
  obtain ⟨hnodes, -, hshows⟩ := lowered_fieldNames (sumLowering.withPositions true) brokenSum
    brokenNode (fun _ => unused) lowered
  refine ⟨unused, lowered, (hnodes brokenNode List.mem_cons_self).1, fun n => ?_⟩
  have hroot : brokenNode.ShownBy (n.node brokenNode).1.entry := by
    cases hshows n with
    | cons hroot _ => exact hroot.item
  constructor
  · apply (hroot.attributes "right" none).2
    simp [brokenNode, RawValue.ofAttribute]
  · apply (hroot.attributes "end_col" (some (.int 1))).2
    simp [brokenNode, positionFields, RawValue.ofAttribute]

end SyntaxGraph
