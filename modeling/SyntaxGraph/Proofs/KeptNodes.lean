import Mathlib.Algebra.BigOperators.Group.List.Basic
import SyntaxGraph.Proofs.Filing
import SyntaxGraph.Proofs.Keys
import SyntaxGraph.Proofs.Numbering

/-!
# Lowering keeps the right nodes

`keptNodes` lists the nodes of a subtree that are kept, its root first: below a kept node, its
filed children with all that is kept below them. `IsImage` says what a raw node has to show of a
node: its kind; under each field, images of the children filed there, in document order; and in a
field of tokens their texts.

This holds of trees that agree with their schema (`WellFiled`). A raw node then has as many nodes
below it as are kept (`CountsNodes` says what it takes to count them), and numbering loses none.

Main statement: `lower_keeps`.
-/

namespace SyntaxGraph

/-! ## Counting nodes -/

/-- The fields of a node come to what was placed in it, if this is so under every name. -/
theorem sum_placedFields {ofValue : RawValue → Nat} {ofPlaced : Placed → Nat}
    {placed : List Placed}
    (names : ∀ name, ofValue (fieldValue (settledShape placed name)
        ((placed.filter (·.field = name)).map (·.value))) =
      ((placed.filter (·.field = name)).map ofPlaced).sum) :
    ((placedFields placed).map fun f => ofValue f.2).sum = (placed.map ofPlaced).sum := by
  have hgroups := flatMap_filter_key_perm (·.field) (nodup_eraseDups (placed.map (·.field)))
    fun p (hp : p ∈ placed) => List.mem_eraseDups.2 (List.mem_map.2 ⟨p, hp, rfl⟩)
  rw [← (hgroups.map ofPlaced).sum_nat, List.map_flatMap, List.flatMap_def, List.sum_flatten,
    List.map_map, placedFields, List.map_map]
  exact congrArg List.sum (List.map_congr_left fun name _ => names name)

/-- The measure of a value is the number of nodes in it, as long as no list stands in a list. -/
structure CountsNodes (count : RawValue → Nat) : Prop where
  bare : ∀ v, v.IsBare → count v = 0
  list : ∀ items : List RawValue, (∀ v ∈ items, ∃ r : RawNode, v = r.toValue) →
    count (.list items) = (items.map count).sum
  node : ∀ r : RawNode, count r.toValue = 1 + (r.fields.map fun f => count f.2).sum

namespace RawValue

theorem nodeCountItems_eq (items : List RawValue) :
    nodeCountItems items = (items.map nodeCount).sum := by
  induction items with
  | nil => rfl
  | cons v rest ih => rw [nodeCountItems, ih, List.map_cons, List.sum_cons]

theorem nodeCountFields_eq (fields : List (String × RawValue)) :
    nodeCountFields fields = (fields.map fun f => f.2.nodeCount).sum := by
  induction fields with
  | nil => rfl
  | cons f rest ih => rw [nodeCountFields, ih, List.map_cons, List.sum_cons]

theorem countsNodes_nodeCount : CountsNodes nodeCount where
  bare v h := by cases h <;> rfl
  list items _ := by rw [nodeCount, nodeCountItems_eq]
  node r := by rw [RawNode.toValue, nodeCount, nodeCountFields_eq]

mutual

/-- The nodes that a listing meets do not depend on where it starts. -/
theorem map_item_listing (depth : Nat) (field : Option String) :
    ∀ v : RawValue, (v.listing depth field).map (·.item) = (v.listing 0 none).map (·.item)
  | .null => rfl
  | .scalar _ => rfl
  | .node kind fields => by
    rw [listing, listing, List.map_cons, List.map_cons, map_item_listingFields]
    rw [map_item_listingFields (0 + 1)]
  | .list items => by
    rw [listing, listing]
    exact map_item_listingItems depth field items

theorem map_item_listingItems (depth : Nat) (field : Option String) :
    ∀ items : List RawValue,
      (listingItems depth field items).map (·.item) = (listingItems 0 none items).map (·.item)
  | [] => rfl
  | .null :: rest => map_item_listingItems depth field rest
  | .scalar _ :: rest => map_item_listingItems depth field rest
  | .list _ :: rest => map_item_listingItems depth field rest
  | .node kind fields :: rest => by
    simp only [listingItems, List.map_append, map_item_listing depth field (.node kind fields),
      map_item_listingItems depth field rest]

theorem map_item_listingFields (depth : Nat) :
    ∀ fields : List (String × RawValue),
      (listingFields depth fields).map (·.item) =
        fields.flatMap fun f => (f.2.listing 0 none).map (·.item)
  | [] => rfl
  | (name, v) :: rest => by
    rw [listingFields, List.map_append, map_item_listing depth (some name) v,
      map_item_listingFields depth rest, List.flatMap_cons]

end

end RawValue

namespace CountsNodes

/-- Numbering, which passes over a list in a list, counts the others. -/
theorem listing : CountsNodes fun v => (v.listing 0 none).length where
  bare v h := by cases h <;> rfl
  list items hitems := by
    show (RawValue.listingItems 0 none items).length = _
    induction items with
    | nil => rfl
    | cons v rest ih =>
      obtain ⟨r, rfl⟩ := hitems v List.mem_cons_self
      rw [List.map_cons, List.sum_cons, ← ih fun w hw => hitems w (List.mem_cons_of_mem _ hw),
        RawNode.toValue, RawValue.listingItems, List.length_append]
      exact nofun
  node r := by
    show (_ :: RawValue.listingFields 1 r.fields).length = _
    rw [List.length_cons, Nat.add_comm, ← List.length_map (·.item),
      RawValue.map_item_listingFields, List.length_flatMap]
    simp only [List.length_map]

variable {count : RawValue → Nat}

theorem fieldValue (counts : CountsNodes count) {shape : FieldShape} {values : List RawValue}
    (bare : shape = .scalar → ∀ v ∈ values, v.IsBare)
    (nodes : shape ≠ .scalar → ∀ v ∈ values, ∃ r : RawNode, v = r.toValue) :
    count (SyntaxGraph.fieldValue shape values) = (values.map count).sum := by
  by_cases hs : shape = .scalar
  · have hzero : (values.map count).sum = 0 := by
      rw [List.sum_eq_zero_iff_forall_eq_nat]
      intro k hk
      obtain ⟨v, hv, rfl⟩ := List.mem_map.1 hk
      exact counts.bare v (bare hs v hv)
    rw [hs, hzero]
    exact counts.bare _ (.scalar _)
  · have hlist := counts.list values (nodes hs)
    match shape, values with
    | .child, [v] => exact (Nat.add_zero _).symm
    | .child, [] | .child, _ :: _ :: _ | .childList, _ => exact hlist

/-- The fields of a node have the nodes of all that was placed in it. -/
theorem placedFields (counts : CountsNodes count) {schema : Option NodeSchema}
    {placed : List Placed} (sorted : ∀ p ∈ placed, p.Sorted schema) :
    ((SyntaxGraph.placedFields placed).map fun f => count f.2).sum =
      (placed.map fun p => count p.value).sum := by
  refine sum_placedFields fun name => ?_
  rcases settledShape_cases placed name with ⟨hnone, h⟩ | ⟨p, hp, hname, h⟩
  · rw [hnone, h]
    exact counts.bare _ (.scalar _)
  · have hshape : settledShape placed name = .scalar ↔ IsTokenField schema name := by
      rw [h, (sorted p hp).shape_iff, hname]
    rw [counts.fieldValue, List.map_map]
    · rfl
    · intro hs v hv
      obtain ⟨q, hq, rfl⟩ := List.mem_map.1 hv
      obtain ⟨hq, hqname⟩ := List.mem_filter.1 hq
      cases sorted q hq with
      | text _ _ bare => exact bare
      | node others => exact absurd (of_decide_eq_true hqname ▸ hshape.1 hs) others
    · intro hs v hv
      obtain ⟨q, hq, rfl⟩ := List.mem_map.1 hv
      obtain ⟨hq, hqname⟩ := List.mem_filter.1 hq
      cases sorted q hq with
      | text tokens => exact absurd (hshape.2 (of_decide_eq_true hqname ▸ tokens)) hs
      | node _ _ raw value => exact ⟨raw, value⟩

/-- What is added to a node does not count. -/
theorem assemble (counts : CountsNodes count) {l : Lowering} {n : SyntaxNode}
    {placed : List Placed} {raw : RawNode} (hraw : l.assemble n placed = .ok raw) :
    count raw.toValue = 1 + ((SyntaxGraph.placedFields placed).map fun f => count f.2).sum := by
  obtain ⟨-, added, hfields, hadded⟩ := Lowering.fields_of_assemble hraw
  have hbare : (added.map fun f => count f.2).sum = 0 := by
    rw [List.sum_eq_zero_iff_forall_eq_nat]
    intro k hk
    obtain ⟨f, hf, rfl⟩ := List.mem_map.1 hk
    exact counts.bare _ (hadded f hf)
  rw [counts.node, hfields, List.map_append, List.sum_append, hbare, Nat.add_zero]

end CountsNodes

/-! ## Kept nodes -/

/-- The tokens of a field of a node, in document order. -/
def SyntaxNode.tokensUnder (n : SyntaxNode) (field : String) : List SyntaxNode :=
  n.children.filter fun c => isTokenOf field c.label

namespace Lowering

mutual

/-- The kept nodes of a subtree whose root is kept, in document order. -/
def keptNodes (l : Lowering) : SyntaxNode → List SyntaxNode
  | ⟨label, children⟩ =>
    ⟨label, children⟩ :: l.keptAmong (l.schema.node? label.kind) children

/-- The kept nodes among children and below them, by the schema of their parent. -/
def keptAmong (l : Lowering) (schema : Option NodeSchema) : List SyntaxNode → List SyntaxNode
  | [] => []
  | c :: rest =>
    if (filedUnder? l.options schema c.label).isSome then
      l.keptNodes c ++ l.keptAmong schema rest
    else l.keptAmong schema rest

end

variable (l : Lowering)

/-- The children of a node that are filed under a field, in document order. -/
def keptUnder (n : SyntaxNode) (field : String) : List SyntaxNode :=
  n.children.filter fun c =>
    filedUnder? l.options (l.schema.node? n.kind) c.label = some field

/-- The children of the node agree with its schema. -/
def WellFiled (n : SyntaxNode) : Prop :=
  ∀ c ∈ n.children, Fits (l.schema.node? n.kind) c.label

instance (n : SyntaxNode) : Decidable (l.WellFiled n) :=
  inferInstanceAs (Decidable (∀ c ∈ n.children, _))

/-- `raw` shows the node `n`: its kind, under each field images of the children filed there, and
in a field of tokens that occurs their texts, with blanks between them. -/
inductive IsImage (l : Lowering) : SyntaxNode → RawNode → Prop
  | intro {n : SyntaxNode} {raw : RawNode} (kind : raw.kind = n.kind)
      (nodes : ∀ field, List.Forall₂ (IsImage l) (l.keptUnder n field) (raw.nodesIn field))
      (tokens : ∀ field, shapeIn? (l.schema.node? n.kind) field = some .scalar →
        n.tokensUnder field ≠ [] →
        ∃ texts, List.Forall₂ (fun c text => l.textOf? c = some text) (n.tokensUnder field) texts ∧
          raw.field? field = some (.scalar (.str (" ".intercalate texts)))) :
      IsImage l n raw

theorem keptNodes_eq (n : SyntaxNode) :
    l.keptNodes n = n :: l.keptAmong (l.schema.node? n.kind) n.children := by
  obtain ⟨label, children⟩ := n
  rw [keptNodes]
  rfl

theorem keptAmong_eq (schema : Option NodeSchema) (children : List SyntaxNode) :
    l.keptAmong schema children =
      (children.filter fun c => (filedUnder? l.options schema c.label).isSome).flatMap
        l.keptNodes := by
  induction children with
  | nil => rfl
  | cons c rest ih =>
    rw [keptAmong]
    split
    · rename_i hc
      rw [List.filter_cons_of_pos (by simpa using hc), List.flatMap_cons, ih]
    · rename_i hc
      rw [List.filter_cons_of_neg (by simpa using hc), ih]

/-- What is kept below a kept child is kept. -/
theorem mem_keptNodes_of_child {l : Lowering} {n c k : SyntaxNode} (hc : c ∈ n.children)
    (hfiled : (filedUnder? l.options (l.schema.node? n.kind) c.label).isSome)
    (hk : k ∈ l.keptNodes c) : k ∈ l.keptNodes n := by
  rw [l.keptNodes_eq n, l.keptAmong_eq]
  exact List.mem_cons_of_mem _ (List.mem_flatMap.2 ⟨c, List.mem_filter.2 ⟨hc, hfiled⟩, hk⟩)

/-! ## The lowered node as an image -/

section

variable {l : Lowering} {n : SyntaxNode} {placed : List Placed} {raw : RawNode}

/-- Under every name, a node that was put together holds images of the children filed there. -/
theorem forall₂_nodesIn (fits : l.WellFiled n)
    (hplaced : Places l (l.schema.node? n.kind) (IsImage l) n.children placed)
    (hraw : l.assemble n placed = .ok raw) (field : String) :
    List.Forall₂ (IsImage l) (l.keptUnder n field) (raw.nodesIn field) := by
  rw [nodesIn_of_assemble hraw]
  by_cases hfield : IsTokenField (l.schema.node? n.kind) field
  · -- no child is filed there, and the field holds a text
    rw [settledShape_tokens (hplaced.sorted fits) hfield, heldNodes_fieldValue_scalar, keptUnder,
      filter_filedUnder_eq_nil fits hfield]
    exact .nil
  · obtain ⟨raws, hraws, hvalues⟩ := hplaced.nodes fits hfield
    rw [hvalues]
    -- nothing was placed under the name, or the first placement there was a node
    rcases settledShape_cases placed field with ⟨hnone, h⟩ | ⟨p, hp, hname, h⟩
    · rw [hnone, List.map_nil, eq_comm, List.map_eq_nil_iff] at hvalues
      rw [h, heldNodes_fieldValue_scalar, ← hvalues]
      exact hraws
    · have hshape : settledShape placed field ≠ .scalar := by
        rw [h, ne_eq, (hplaced.sorted fits p hp).shape_iff, hname]
        exact hfield
      have items : ∀ v ∈ raws.map RawNode.toValue, v.heldNodes = v.asNode?.toList := by
        intro v hv
        obtain ⟨r, -, rfl⟩ := List.mem_map.1 hv
        rfl
      rw [heldNodes_fieldValue hshape items, filterMap_asNode?_toValue]
      exact hraws

/-- A field of tokens that occurs holds their texts. -/
theorem field?_tokens (fits : l.WellFiled n) {R : SyntaxNode → RawNode → Prop}
    (hplaced : Places l (l.schema.node? n.kind) R n.children placed)
    (hraw : l.assemble n placed = .ok raw) {field : String}
    (hscalar : shapeIn? (l.schema.node? n.kind) field = some .scalar)
    (hoccurs : n.tokensUnder field ≠ []) :
    ∃ texts, List.Forall₂ (fun c text => l.textOf? c = some text) (n.tokensUnder field) texts ∧
      raw.field? field = some (.scalar (.str (" ".intercalate texts))) := by
  obtain ⟨c, hc⟩ := List.exists_mem_of_ne_nil _ hoccurs
  obtain ⟨hc, htoken⟩ := List.mem_filter.1 hc
  obtain ⟨hextra, hname⟩ := isTokenOf_eq_true.1 htoken
  have hfield : IsTokenField (l.schema.node? n.kind) field :=
    ⟨hscalar, ((fits c hc).2 hextra field hname).2⟩
  obtain ⟨texts, htexts, hvalues⟩ := hplaced.tokens fits hfield
  refine ⟨texts, htexts, ?_⟩
  -- the name was placed, since a token stands under it
  have hsome : placed.filter (·.field = field) ≠ [] := by
    intro hnone
    rw [hnone, List.map_nil, eq_comm, List.map_eq_nil_iff] at hvalues
    exact hoccurs (List.forall₂_nil_right_iff.1 (hvalues ▸ htexts))
  obtain ⟨p, hp⟩ := List.exists_mem_of_ne_nil _ hsome
  obtain ⟨hp, hpname⟩ := List.mem_filter.1 hp
  obtain ⟨-, added, hfields, -⟩ := fields_of_assemble hraw
  rw [RawNode.field?, hfields, List.lookup_append, lookup_placedFields,
    if_pos (List.mem_map.2 ⟨p, hp, of_decide_eq_true hpname⟩), Option.some_or, hvalues,
    settledShape_tokens (hplaced.sorted fits) hfield, fieldValue_scalar]

theorem isImage_of_assemble (fits : l.WellFiled n)
    (hplaced : Places l (l.schema.node? n.kind) (IsImage l) n.children placed)
    (hraw : l.assemble n placed = .ok raw) : l.IsImage n raw :=
  .intro (fields_of_assemble hraw).1 (forall₂_nodesIn fits hplaced hraw) fun _ hscalar hoccurs =>
    field?_tokens fits hplaced hraw hscalar hoccurs

/-! ## The number of nodes below a lowered node -/

/-- What was placed has as many nodes as are kept among the children and below them. -/
theorem Places.sum_count {schema : Option NodeSchema} {count : RawValue → Nat}
    (counts : CountsNodes count) {children : List SyntaxNode}
    (h : Places l schema (fun c r => count r.toValue = (l.keptNodes c).length) children placed)
    (fits : ∀ c ∈ children, Fits schema c.label) :
    (placed.map fun p => count p.value).sum = (l.keptAmong schema children).length := by
  induction h with
  | nil => rfl
  | ignored hp _ ih =>
    obtain ⟨fit, fits⟩ := List.forall_mem_cons.1 fits
    rw [keptAmong, (fit.of_ignored hp).1]
    exact ih fits
  | token hp _ _ ih =>
    obtain ⟨fit, fits⟩ := List.forall_mem_cons.1 fits
    rw [List.map_cons, List.sum_cons, counts.bare _ (.scalar _), Nat.zero_add, keptAmong,
      (fit.of_token hp).1]
    exact ih fits
  | kept hp hR _ ih =>
    obtain ⟨fit, fits⟩ := List.forall_mem_cons.1 fits
    rw [List.map_cons, List.sum_cons, hR, ih fits, keptAmong, (fit.of_kept hp).1]
    exact List.length_append.symm

theorem count_of_assemble {count : RawValue → Nat} (counts : CountsNodes count)
    (fits : l.WellFiled n)
    (hplaced : Places l (l.schema.node? n.kind)
      (fun c r => count r.toValue = (l.keptNodes c).length) n.children placed)
    (hraw : l.assemble n placed = .ok raw) : count raw.toValue = (l.keptNodes n).length := by
  rw [counts.assemble hraw, counts.placedFields (hplaced.sorted fits),
    hplaced.sum_count counts fits, keptNodes_eq, List.length_cons, Nat.add_comm]

/-! ## The whole walk -/

/-- The raw node shows all that is kept of a subtree, and no more. -/
def Keeps (l : Lowering) (n : SyntaxNode) (raw : RawNode) : Prop :=
  l.IsImage n raw ∧ ∀ count, CountsNodes count → count raw.toValue = (l.keptNodes n).length

theorem keeps_of_assemble (fits : l.WellFiled n)
    (hplaced : Places l (l.schema.node? n.kind) l.Keeps n.children placed)
    (hraw : l.assemble n placed = .ok raw) : l.Keeps n raw := by
  refine ⟨isImage_of_assemble fits (hplaced.imp ?_) hraw, fun count counts =>
    count_of_assemble counts fits (hplaced.imp ?_) hraw⟩
  · exact fun _ _ _ _ _ _ h => h.1
  · exact fun _ _ _ _ _ _ h => h.2 count counts

/-- By induction over the walk: a child that is kept is filed, so what is kept below it is kept
below its parent and agrees with its schema too. -/
theorem keeps_of_lowerAt {depth : Nat} (h : l.lowerAt depth n = .ok raw)
    (agree : ∀ k ∈ l.keptNodes n, l.WellFiled k) : l.Keeps n raw := by
  revert agree
  refine lowerAt_induct (P := fun n raw => (∀ k ∈ l.keptNodes n, l.WellFiled k) → l.Keeps n raw)
    ?_ depth n raw h
  intro n placed raw hplaced hraw agree
  have fits : l.WellFiled n := agree n (by rw [keptNodes_eq]; exact List.mem_cons_self)
  refine keeps_of_assemble fits (hplaced.imp ?_) hraw
  intro c hc field shape hp r hkeeps
  have hfiled : (filedUnder? l.options (l.schema.node? n.kind) c.label).isSome := by
    rw [((fits c hc).of_kept hp).1]
    rfl
  exact hkeeps fun k hk => agree k (mem_keptNodes_of_child hc hfiled hk)

end

end Lowering

/-- **Lowering keeps exactly the right nodes**: if every kept node agrees with its schema, what a
tree is lowered to is an image of it, with as many nodes as were kept, and so has the tree that
numbering makes of it. -/
theorem lower_keeps (l : Lowering) (root : SyntaxNode) (raw : RawNode)
    (agree : ∀ n ∈ l.keptNodes root, l.WellFiled n) (h : l.lower root = .ok raw) :
    l.IsImage root raw ∧ raw.nodeCount = (l.keptNodes root).length ∧
      ∀ n : Numbering, (n.node raw).1.nodeCount = (l.keptNodes root).length := by
  obtain ⟨himage, hcount⟩ := Lowering.keeps_of_lowerAt h agree
  refine ⟨himage, hcount _ RawValue.countsNodes_nodeCount, fun n => ?_⟩
  rw [n.nodeCount_node]
  exact hcount _ .listing

/-- A sum with a token in a field of tokens, another token, and a comment. -/
def sumTree : SyntaxNode :=
  let leaf (kind : String) (named extra : Bool) (field : Option String) (start stop : Nat) :
      SyntaxNode :=
    ⟨⟨kind, named, extra, false, false, false, field, start, stop, ⟨0, start⟩, ⟨0, stop⟩⟩, []⟩
  ⟨⟨"sum", true, false, false, false, false, none, 0, 11, ⟨0, 0⟩, ⟨0, 11⟩⟩,
    [leaf "identifier" true false (some "left") 0 1,
      leaf "+" false false (some "operator") 2 3,
      leaf "(" false false none 4 5,
      leaf "integer" true false none 5 6,
      leaf ")" false false none 6 7,
      leaf "comment" true true none 8 11]⟩

/-- A lowering that keeps comments, by a grammar that knows sums. -/
def sumLowering : Lowering where
  schema := ⟨SortedMap.ofList [("sum",
    ⟨SortedMap.ofList [("left", .child), ("operator", .scalar), ("right", .child)],
      some .childList⟩)]⟩
  source := "a + (1) # b"
  options := { includeComments := true }

def sumNode : RawNode where
  kind := "sum"
  fields := [("left", .node "identifier" [("text", .scalar (.str "a"))]),
    ("operator", .scalar (.str "+")),
    ("children", .list [.node "integer" [("text", .scalar (.str "1"))]]),
    ("comments", .list [.node "comment" [("text", .scalar (.str "# b"))]]),
    ("right", .null)]

theorem lower_keeps_sum :
    (∀ n ∈ sumLowering.keptNodes sumTree, sumLowering.WellFiled n) ∧
    sumLowering.lower sumTree = .ok sumNode ∧
    sumLowering.IsImage sumTree sumNode ∧ sumNode.nodeCount = 4 := by
  have agree : ∀ n ∈ sumLowering.keptNodes sumTree, sumLowering.WellFiled n := by decide
  have lowered : sumLowering.lower sumTree = .ok sumNode := by rfl
  obtain ⟨himage, hcount, -⟩ := lower_keeps sumLowering sumTree sumNode agree lowered
  exact ⟨agree, lowered, himage, hcount⟩

end SyntaxGraph
