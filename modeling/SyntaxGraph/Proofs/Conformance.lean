import SyntaxGraph.Proofs.Keys
import SyntaxGraph.Proofs.Placement
import SyntaxGraph.Proofs.Subtrees

/-!
# Numbered trees conform to the schema

A lowered node has every field of its schema, and has it once: what was placed in it, or else what
stands for nothing (`filter_fields_of_assemble`). All that is placed in a field of the schema has
the shape that the schema says, whatever the tree is like (`Places.shape_eq`). So the field is
filled in one of a few ways (`RawValue.Fills`), and from these numbering makes an attribute, or
children that are nodes, or neither (`conforms_of_fills`).

The fields of unnamed children and of comments are shared with children of another sort, and the
position attributes come after the fields, so nothing is said of these names.

Main statement: `lowered_conforms`.
-/

namespace SyntaxGraph

/-! ## Fields in a numbered tree -/

namespace NumberedNode

/-- The children that a field holds, nodes and value leaves. -/
def under (x : NumberedNode) (field : String) : List Numbered :=
  (x.children.filter (·.1 = field)).map (·.2)

/-- A field of the schema as a node has to show it: tokens as an attribute that is a text or
nothing; at most one node as an attribute that is nothing, or as children; nodes in a row as
children. -/
def Conforms (x : NumberedNode) (field : String) : FieldShape → Prop
  | .scalar =>
    (x.entry.attributes.get? field = some none ∨
      ∃ text, x.entry.attributes.get? field = some (some (.str text))) ∧ x.under field = []
  | .child =>
    (x.entry.attributes.get? field = some none ∧ x.under field = []) ∨
      (x.entry.attributes.get? field = none ∧ x.under field ≠ [])
  | .childList => x.entry.attributes.get? field = none

end NumberedNode

/-- The child that an item of a list gives, if it gives one: whether it is a node. -/
def RawValue.itemChild? : RawValue → Option Bool
  | .node _ _ => some true
  | .scalar _ => some false
  | _ => none

/-- The children that a field gives: whether each is a node. -/
def RawValue.fieldChildren : RawValue → List Bool
  | .node _ _ => [true]
  | .list items => items.filterMap itemChild?
  | _ => []

theorem map_numberItems (next : NodeId) (field : String) (items : List RawValue) :
    (numberItems next field items).1.map (fun e => (e.1, e.2.asNode?.isSome)) =
      (items.filterMap RawValue.itemChild?).map (field, ·) := by
  induction items generalizing next with
  | nil => rfl
  | cons item rest ih =>
    rw [numberItems, List.map_append, ih]
    cases item <;> rfl

theorem map_numberField (next : NodeId) (field : String) (value : RawValue) :
    (numberField next field value).1.map (fun e => (e.1, e.2.asNode?.isSome)) =
      value.fieldChildren.map (field, ·) := by
  cases value with
  | null | scalar | node => rfl
  | list items => exact map_numberItems next field items

theorem under_numberFields (next : NodeId) (fields : List (String × RawValue)) (field : String) :
    ((numberFields next fields).1.filter (·.1 = field)).map (·.2.asNode?.isSome) =
      (fields.filter (·.1 = field)).flatMap (·.2.fieldChildren) := by
  induction fields generalizing next with
  | nil => rfl
  | cons f rest ih =>
    obtain ⟨name, value⟩ := f
    have hhere := map_numberField next name value
    have hnames : ∀ e ∈ (numberField next name value).1, e.1 = name := by
      intro e he
      have hmem := List.mem_map_of_mem (f := fun e => (e.1, e.2.asNode?.isSome)) he
      rw [hhere] at hmem
      obtain ⟨b, -, hb⟩ := List.mem_map.1 hmem
      exact (congrArg Prod.fst hb).symm
    rw [numberFields, List.filter_append, List.map_append, ih]
    by_cases hname : name = field
    · rw [List.filter_cons_of_pos (by simpa using hname), List.flatMap_cons,
        List.filter_eq_self.2 fun e he => by simpa [hnames e he] using hname]
      have hsorts := congrArg (List.map Prod.snd) hhere
      simp only [List.map_map, Function.comp_def, List.map_id'] at hsorts
      rw [hsorts]
    · rw [List.filter_cons_of_neg (by simpa using hname),
        List.filter_eq_nil_iff.2 fun e he => by simpa [hnames e he] using hname]
      rfl

/-! ## How a field is filled -/

/-- The ways in which a field of some shape can be filled. -/
inductive RawValue.Fills : FieldShape → RawValue → Prop
  | text (text : String) : Fills .scalar (.scalar (.str text))
  | nothing {shape : FieldShape} (single : shape ≠ .childList) : Fills shape .null
  | one {v : RawValue} (node : v.isNode) : Fills .child v
  | several {items : List RawValue} (occurs : items ≠ []) (nodes : ∀ v ∈ items, v.isNode) :
      Fills .child (.list items)
  | row {items : List RawValue} (nodes : ∀ v ∈ items, v.isNode) : Fills .childList (.list items)

/-- What was placed in a field fills it, if there is something, and these are nodes unless it is a
field of tokens. -/
theorem fills_fieldValue {shape : FieldShape} {values : List RawValue} (occurs : values ≠ [])
    (nodes : shape ≠ .scalar → ∀ v ∈ values, v.isNode) : (fieldValue shape values).Fills shape := by
  match shape, values with
  | .scalar, _ => exact .text _
  | .child, [] => exact absurd rfl occurs
  | .child, [v] => exact .one (nodes nofun v List.mem_cons_self)
  | .child, _ :: _ :: _ => exact .several occurs (nodes nofun)
  | .childList, _ => exact .row (nodes nofun)

theorem itemChild?_of_isNode {v : RawValue} (h : v.isNode) : v.itemChild? = some true := by
  cases v with
  | node => rfl
  | null | scalar | list => cases h

theorem filterMap_itemChild? {items : List RawValue} (nodes : ∀ v ∈ items, v.isNode) :
    items.filterMap RawValue.itemChild? = List.replicate items.length true := by
  induction items with
  | nil => rfl
  | cons v rest ih =>
    obtain ⟨node, nodes⟩ := List.forall_mem_cons.1 nodes
    rw [List.filterMap_cons_some (itemChild?_of_isNode node), ih nodes]
    rfl

/-- Where a field is filled, each of its children is a node. -/
theorem RawValue.Fills.of_mem_fieldChildren {shape : FieldShape} {v : RawValue} {b : Bool}
    (fills : v.Fills shape) (hb : b ∈ v.fieldChildren) : b = true := by
  cases fills with
  | text | nothing => exact absurd hb List.not_mem_nil
  | one node =>
    cases v with
    | node => exact List.mem_singleton.1 hb
    | null | scalar | list => cases node
  | several _ nodes | row nodes =>
    rw [fieldChildren, filterMap_itemChild? nodes] at hb
    exact List.eq_of_mem_replicate hb

section

variable {n : Numbering} {raw : RawNode} {field : String} {v : RawValue}

theorem get?_attributes_node (only : raw.fields.filter (·.1 = field) = [(field, v)]) :
    (n.node raw).1.entry.attributes.get? field = v.attribute? := by
  show (attributesOf raw.fields).get? field = _
  rw [get?_attributesOf, only]
  cases hv : v.attribute? <;> simp [hv]

theorem map_under_node (only : raw.fields.filter (·.1 = field) = [(field, v)]) :
    ((n.node raw).1.under field).map (·.asNode?.isSome) = v.fieldChildren := by
  have h := under_numberFields (n.assigned + 1) raw.fields field
  rw [only, List.flatMap_singleton] at h
  rw [NumberedNode.under, List.map_map]
  exact h

/-- A field that is filled and stands once in a node is shown as its shape demands, without value
leaves. -/
theorem conforms_of_fills {shape : FieldShape}
    (only : raw.fields.filter (·.1 = field) = [(field, v)]) (fills : v.Fills shape) :
    (n.node raw).1.Conforms field shape ∧
      ∀ c ∈ (n.node raw).1.under field, c.asNode?.isSome := by
  have hattribute := get?_attributes_node (n := n) only
  have hunder := map_under_node (n := n) only
  generalize (n.node raw).1 = x at hattribute hunder
  have hnone : v.fieldChildren = [] → x.under field = [] := by
    intro h
    rw [h] at hunder
    exact List.map_eq_nil_iff.1 hunder
  have hsome : v.fieldChildren ≠ [] → x.under field ≠ [] := by
    intro h hnil
    rw [hnil] at hunder
    exact h hunder.symm
  constructor
  · cases fills with
    | text text => exact ⟨.inr ⟨text, hattribute⟩, hnone rfl⟩
    | nothing single =>
      cases shape with
      | scalar => exact ⟨.inl hattribute, hnone rfl⟩
      | child => exact .inl ⟨hattribute, hnone rfl⟩
      | childList => exact absurd rfl single
    | one node =>
      cases v with
      | node => exact .inr ⟨hattribute, hsome (List.cons_ne_nil _ _)⟩
      | null | scalar | list => cases node
    | @several items occurs nodes =>
      refine .inr ⟨hattribute, hsome ?_⟩
      rw [RawValue.fieldChildren, filterMap_itemChild? nodes]
      simpa using occurs
    | row nodes => exact hattribute
  · intro c hc
    have hmem : c.asNode?.isSome ∈ v.fieldChildren := by
      rw [← hunder]
      exact List.mem_map_of_mem hc
    exact fills.of_mem_fieldChildren hmem

end

/-! ## Fields of a lowered node -/

/-- There is one field for what was placed under a name. -/
theorem filter_placedFields (placed : List Placed) (name : String) :
    (placedFields placed).filter (·.1 = name) =
      if name ∈ placed.map (·.field) then
        [(name, fieldValue (settledShape placed name)
          ((placed.filter (·.field = name)).map (·.value)))]
      else [] := by
  have hdistinct : ((placedFields placed).map (·.1)).Nodup := by
    rw [map_fst_placedFields]
    exact nodup_eraseDups _
  split
  · rename_i hname
    have hmem : (name, fieldValue (settledShape placed name)
        ((placed.filter (·.field = name)).map (·.value))) ∈ placedFields placed :=
      List.mem_map.2 ⟨name, List.mem_eraseDups.2 hname, rfl⟩
    exact filter_key_eq_singleton hdistinct hmem
  · rename_i hname
    apply filter_key_eq_nil
    rw [mem_map_fst_placedFields]
    exact hname

/-- There is one field for a field of the schema in which nothing was placed. -/
theorem filter_emptyFields {s : NodeSchema} {field : String} {shape : FieldShape}
    (hshape : s.fields.get? field = some shape) (placed : List Placed) :
    (emptyFields (some s) placed).filter (·.1 = field) =
      if field ∈ placed.map (·.field) then [] else [(field, emptyFieldValue shape)] := by
  have hentries : (s.fields.entries.filter fun f => !placed.any (·.field = f.1)).filter
      (·.1 = field) = [(field, shape)].filter fun f => !placed.any (·.field = f.1) := by
    rw [← SortedMap.filter_entries hshape, List.filter_filter, List.filter_filter]
    exact List.filter_congr fun _ _ => Bool.and_comm _ _
  have hplaced : placed.any (·.field = field) = true ↔ field ∈ placed.map (·.field) :=
    any_field_eq_true_iff
  rw [emptyFields, List.filter_map]
  show List.map _ (List.filter (fun f : String × FieldShape => f.1 = field) _) = _
  rw [hentries]
  by_cases hname : field ∈ placed.map (·.field)
  · rw [if_pos hname, List.filter_cons_of_neg (by simpa using hplaced.2 hname)]
    rfl
  · rw [if_neg hname, List.filter_cons_of_pos (by simpa using mt hplaced.1 hname)]
    rfl

/-- A field of the schema, other than those that lowering adds to. -/
structure IsOwnField (s : NodeSchema) (field : String) (shape : FieldShape) : Prop where
  shape : s.fields.get? field = some shape
  unnamed : field ≠ unnamedField
  comments : field ≠ commentsField
  positions : field ∉ positionNames

/-- What a field of the schema holds after placing. -/
def heldIn (placed : List Placed) (field : String) (shape : FieldShape) : RawValue :=
  if field ∈ placed.map (·.field) then
    fieldValue (settledShape placed field) ((placed.filter (·.field = field)).map (·.value))
  else emptyFieldValue shape

namespace Lowering

variable {l : Lowering} {n : SyntaxNode} {placed : List Placed} {s : NodeSchema} {field : String}
  {shape : FieldShape}

/-- The text is added only to a node without a field of that name. -/
theorem filter_leafText {label : NodeLabel} {raw : RawNode} {text : List (String × RawValue)}
    (h : l.leafText label raw = .ok text) (hfield : (raw.field? field).isSome) :
    text.filter (·.1 = field) = [] := by
  rcases leafText_cases h with rfl | ⟨hnone, t, rfl⟩
  · rfl
  · have hne : textField ≠ field := by
      rintro rfl
      rw [hnone] at hfield
      cases hfield
    simp [hne]

/-- **A lowered node has a field of its schema once.** -/
theorem filter_fields_of_assemble {raw : RawNode} (hnode : l.schema.node? n.kind = some s)
    (own : IsOwnField s field shape) (hraw : l.assemble n placed = .ok raw) :
    raw.fields.filter (·.1 = field) = [(field, heldIn placed field shape)] := by
  obtain ⟨text, htext, rfl⟩ := assemble_eq_ok_iff.1 hraw
  have hown : (l.ownFields n.kind placed).filter (·.1 = field) =
      [(field, heldIn placed field shape)] := by
    rw [ownFields, hnode, List.filter_append, filter_placedFields, filter_emptyFields own.shape,
      heldIn]
    by_cases hname : field ∈ placed.map (·.field)
    · simp only [if_pos hname, List.append_nil]
    · simp only [if_neg hname, List.nil_append]
  have hsome : (RawNode.field? ⟨n.kind, l.ownFields n.kind placed⟩ field).isSome := by
    have hmem : (field, heldIn placed field shape) ∈ l.ownFields n.kind placed := by
      have := List.mem_singleton_self (field, heldIn placed field shape)
      rw [← hown] at this
      exact (List.mem_filter.1 this).1
    exact List.lookup_isSome_iff.2 ⟨_, hmem, by simp⟩
  have hpositions : (l.positionsOf n).filter (·.1 = field) = [] := by
    apply filter_key_eq_nil
    unfold positionsOf
    split
    · rw [map_fst_positionFields]
      exact own.positions
    · exact List.not_mem_nil
  simp only [List.filter_append, hown, filter_leafText htext hsome, hpositions, List.append_nil]

/-- What is placed in a field of the schema has the shape that the schema says. -/
theorem Places.shape_eq {R : SyntaxNode → RawNode → Prop} {children : List SyntaxNode}
    {p : Placed} (h : Places l (some s) R children placed) (hp : p ∈ placed)
    (own : IsOwnField s p.field shape) : p.shape = shape ∧ (shape ≠ .scalar → p.value.isNode) := by
  have hown : shapeIn? (some s) p.field = some shape := own.shape
  obtain ⟨c, -, ⟨hplace, hshape, -⟩ | ⟨hplace, raw, -, hvalue⟩⟩ := h.exists_child hp
  · obtain ⟨-, -, hscalar⟩ := of_placement_token hplace
    rw [fieldShape_eq hown] at hscalar
    exact ⟨hshape.trans hscalar.symm, fun hne => absurd hscalar hne⟩
  · rcases of_placement_kept hplace with ⟨-, -, hname⟩ | ⟨-, -, hname⟩ | ⟨-, -, hshape, -⟩
    · exact absurd hname own.comments
    · exact absurd hname own.unnamed
    · rw [fieldShape_eq hown] at hshape
      refine ⟨hshape, fun _ => ?_⟩
      rw [hvalue]
      rfl

/-- The first placement in a field of the schema settles it in the shape that the schema says. -/
theorem Places.settledShape_eq {R : SyntaxNode → RawNode → Prop} {children : List SyntaxNode}
    (h : Places l (some s) R children placed) (own : IsOwnField s field shape)
    (hname : field ∈ placed.map (·.field)) : settledShape placed field = shape := by
  rcases settledShape_cases placed field with ⟨hnone, -⟩ | ⟨p, hp, hpname, hsettled⟩
  · obtain ⟨q, hq, hqname⟩ := List.mem_map.1 hname
    exact absurd (by simpa using hqname) (List.filter_eq_nil_iff.1 hnone q hq)
  · rw [hsettled]
    exact (h.shape_eq hp (hpname ▸ own)).1

/-- A field of the schema is filled after placing. -/
theorem Places.fills_heldIn {R : SyntaxNode → RawNode → Prop} {children : List SyntaxNode}
    (h : Places l (some s) R children placed) (own : IsOwnField s field shape) :
    (heldIn placed field shape).Fills shape := by
  rw [heldIn]
  split
  · rename_i hname
    rw [h.settledShape_eq own hname]
    apply fills_fieldValue
    · intro hnil
      obtain ⟨q, hq, hqname⟩ := List.mem_map.1 hname
      exact absurd (by simpa using hqname)
        (List.filter_eq_nil_iff.1 (List.map_eq_nil_iff.1 hnil) q hq)
    · intro hshape v hv
      obtain ⟨p, hp, rfl⟩ := List.mem_map.1 hv
      obtain ⟨hp, hpname⟩ := List.mem_filter.1 hp
      exact (h.shape_eq hp (of_decide_eq_true hpname ▸ own)).2 hshape
  · cases shape with
    | scalar | child => exact .nothing nofun
    | childList => exact .row fun v hv => absurd hv List.not_mem_nil

theorem conforms_of_lowerAt {depth : Nat} {raw : RawNode} (h : l.lowerAt depth n = .ok raw)
    (k : Numbering) (hnode : l.schema.node? n.kind = some s) (own : IsOwnField s field shape) :
    (k.node raw).1.Conforms field shape ∧
      ∀ c ∈ (k.node raw).1.under field, c.asNode?.isSome := by
  obtain ⟨-, placed, hplaced, hraw⟩ := lowerAt_eq_ok_iff.1 h
  rw [hnode] at hplaced
  exact conforms_of_fills (filter_fields_of_assemble hnode own hraw) (hplaced.fills_heldIn own)

theorem kind_of_lowerAt {depth : Nat} {raw : RawNode} (h : l.lowerAt depth n = .ok raw) :
    raw.kind = n.kind := by
  obtain ⟨-, placed, -, hraw⟩ := lowerAt_eq_ok_iff.1 h
  exact (fields_of_assemble hraw).1

end Lowering

/-- **Every node of a tree conforms to the schema**, also in a tree with errors: a field of the
schema is shown in its shape, and no value leaf stands under it. -/
theorem lowered_conforms (l : Lowering) (root : SyntaxNode) (raw : RawNode)
    (h : l.lower root = .ok raw) (n : Numbering) :
    ∀ x ∈ (n.node raw).1.nodes, ∀ s, l.schema.node? x.entry.name = some s →
      ∀ field shape, IsOwnField s field shape →
        x.Conforms field shape ∧ ∀ c ∈ x.under field, c.asNode?.isSome := by
  intro x hx s hnode field shape own
  obtain ⟨r, hr, k, rfl⟩ := Numbering.numbersOneOf_of_mem_nodes hx
  obtain ⟨m, -, level, hlevel⟩ := Lowering.exists_lowerAt_of_mem_nodes h hr
  have hkind : l.schema.node? m.kind = some s := by
    rw [← Lowering.kind_of_lowerAt hlevel]
    exact hnode
  exact Lowering.conforms_of_lowerAt hlevel k hkind own

/-- A sum with two nodes in a field for one, of which the second is an error, and with a token that
is missing. -/
def damagedSum : SyntaxNode :=
  let leaf (kind : String) (named error missing : Bool) (field : String) (start stop : Nat) :
      SyntaxNode :=
    ⟨⟨kind, named, false, error, missing, error || missing, some field, start, stop, ⟨0, start⟩,
      ⟨0, stop⟩⟩, []⟩
  ⟨⟨"sum", true, false, false, false, true, none, 0, 3, ⟨0, 0⟩, ⟨0, 3⟩⟩,
    [leaf "identifier" true false false "left" 0 1, leaf "ERROR" true true false "left" 2 3,
      leaf "+" false false true "operator" 3 3]⟩

def damagedNode : RawNode where
  kind := "sum"
  fields := [("left", .list [.node "identifier" [("text", .scalar (.str "a"))],
      .node "ERROR" [("text", .scalar (.str "+"))]]),
    ("operator", .scalar (.str "")),
    ("right", .null)]

theorem lowered_conforms_damaged :
    sumLowering.lower damagedSum = .ok damagedNode ∧
    (Numbering.node {} damagedNode).1.Conforms "left" .child ∧
    ((Numbering.node {} damagedNode).1.under "left").length = 2 ∧
    (Numbering.node {} damagedNode).1.Conforms "operator" .scalar ∧
    (Numbering.node {} damagedNode).1.Conforms "right" .child := by
  have lowered : sumLowering.lower damagedSum = .ok damagedNode := by rfl
  have root : (Numbering.node {} damagedNode).1 ∈ (Numbering.node {} damagedNode).1.nodes :=
    List.mem_cons_self
  have conforms := lowered_conforms sumLowering damagedSum damagedNode lowered {} _ root _ rfl
  exact ⟨lowered, (conforms "left" .child ⟨rfl, by decide, by decide, by decide⟩).1, rfl,
    (conforms "operator" .scalar ⟨rfl, by decide, by decide, by decide⟩).1,
    (conforms "right" .child ⟨rfl, by decide, by decide, by decide⟩).1⟩

end SyntaxGraph
