import SyntaxGraph.Proofs.Outcomes
import SyntaxGraph.RawTree.Lowering

/-!
# What lowering does with the children of a node

A lowering that succeeds has done one of three things with each child, in document order: ignored
it, kept its text, or kept its raw node. `Places` says so, for any relation between a kept child
and its raw node, and `lowerAt_eq_ok_iff` says what a lowered node is made of. `lowerAt_induct` is
the induction that goes with it: to show something of every lowered node, it is enough to show it
of a node whose kept children have it.

A placed field holds all that was placed under its name (`lookup_placedFields`).
-/

namespace SyntaxGraph

theorem SyntaxNode.induct {motive : SyntaxNode → Prop}
    (step : ∀ n, (∀ c ∈ n.children, motive c) → motive n) (n : SyntaxNode) : motive n := by
  obtain ⟨label, children⟩ := n
  apply step
  intro c hc
  have hlt : sizeOf c < sizeOf children := List.sizeOf_lt_of_mem hc
  exact induct step c
termination_by sizeOf n
decreasing_by
  simp only [SyntaxNode.mk.sizeOf_spec]
  omega

namespace Lowering

variable {l : Lowering}

/-- What the source has where a node stands, if that is a slice of it. -/
def textOf? (l : Lowering) (n : SyntaxNode) : Option String :=
  Text.sliceBytes l.source n.label.startByte n.label.endByte

theorem text_eq_ok_iff {n : SyntaxNode} {text : String} :
    l.text n.label = .ok text ↔ l.textOf? n = some text := by
  rw [Lowering.text, textOf?]
  cases Text.sliceBytes l.source n.label.startByte n.label.endByte with
  | none => simp
  | some t => simp

/-! ## Placing the children -/

/-- What placing the children of a node gives, by the schema of the node. `R` relates a kept child
to its raw node. -/
inductive Places (l : Lowering) (schema : Option NodeSchema) (R : SyntaxNode → RawNode → Prop) :
    List SyntaxNode → List Placed → Prop
  | nil : Places l schema R [] []
  | ignored {child : SyntaxNode} {rest : List SyntaxNode} {placed : List Placed} :
      placement l.options schema child.label = .ignored →
      Places l schema R rest placed → Places l schema R (child :: rest) placed
  | token {child : SyntaxNode} {rest : List SyntaxNode} {placed : List Placed} {field : String}
      {text : String} :
      placement l.options schema child.label = .token field → l.text child.label = .ok text →
      Places l schema R rest placed →
      Places l schema R (child :: rest) (⟨field, .scalar, .scalar (.str text)⟩ :: placed)
  | kept {child : SyntaxNode} {rest : List SyntaxNode} {placed : List Placed} {field : String}
      {shape : FieldShape} {raw : RawNode} :
      placement l.options schema child.label = .kept field shape → R child raw →
      Places l schema R rest placed →
      Places l schema R (child :: rest) (⟨field, shape, raw.toValue⟩ :: placed)

theorem Places.imp {schema : Option NodeSchema} {R S : SyntaxNode → RawNode → Prop}
    {children : List SyntaxNode} {placed : List Placed}
    (himp : ∀ c ∈ children, ∀ field shape, placement l.options schema c.label = .kept field shape →
      ∀ raw, R c raw → S c raw) (h : Places l schema R children placed) :
    Places l schema S children placed := by
  induction h with
  | nil => exact .nil
  | ignored hp _ ih => exact .ignored hp (ih fun c hc => himp c (List.mem_cons_of_mem _ hc))
  | token hp ht _ ih => exact .token hp ht (ih fun c hc => himp c (List.mem_cons_of_mem _ hc))
  | kept hp hR _ ih =>
    exact .kept hp (himp _ List.mem_cons_self _ _ hp _ hR)
      (ih fun c hc => himp c (List.mem_cons_of_mem _ hc))

theorem placeChildren_eq_ok_iff {depth : Nat} {schema : Option NodeSchema}
    {children : List SyntaxNode} {placed : List Placed} :
    l.placeChildren depth schema children = .ok placed ↔
      Places l schema (fun c raw => l.lowerAt depth c = .ok raw) children placed := by
  constructor
  · intro h
    induction children generalizing placed with
    | nil =>
      rw [placeChildren, Except.ok.injEq] at h
      subst h
      exact .nil
    | cons child rest ih =>
      rw [placeChildren] at h
      split at h
      · rename_i hp
        exact .ignored hp (ih h)
      · rename_i field hp
        obtain ⟨text, ht, h⟩ := bind_eq_ok.1 h
        obtain ⟨tail, hrest, h⟩ := bind_eq_ok.1 h
        cases h
        exact .token hp ht (ih hrest)
      · rename_i field shape hp
        obtain ⟨raw, hraw, h⟩ := bind_eq_ok.1 h
        obtain ⟨tail, hrest, h⟩ := bind_eq_ok.1 h
        cases h
        exact .kept hp hraw (ih hrest)
  · intro h
    induction h with
    | nil => rw [placeChildren]
    | ignored hp _ ih => rw [placeChildren, hp]; exact ih
    | token hp ht _ ih => rw [placeChildren, hp]; simp only [ht, ih]; rfl
    | kept hp hraw _ ih => rw [placeChildren, hp]; simp only [hraw, ih]; rfl

/-! ## Putting a node together -/

/-- The fields of a node, before what the options add. -/
def ownFields (l : Lowering) (kind : String) (placed : List Placed) : List (String × RawValue) :=
  placedFields placed ++ emptyFields (l.schema.node? kind) placed

/-- The position attributes of a node, if they are wanted. -/
def positionsOf (l : Lowering) (n : SyntaxNode) : List (String × RawValue) :=
  if l.options.includePositions then positionFields n.span else []

theorem assemble_eq_ok_iff {n : SyntaxNode} {placed : List Placed} {raw : RawNode} :
    l.assemble n placed = .ok raw ↔
      ∃ text, l.leafText n.label ⟨n.kind, l.ownFields n.kind placed⟩ = .ok text ∧
        raw = ⟨n.kind, l.ownFields n.kind placed ++ text ++ l.positionsOf n⟩ := by
  rw [assemble, bind_eq_ok]
  refine exists_congr fun text => and_congr_right fun _ => ?_
  show Except.ok _ = Except.ok _ ↔ _
  rw [Except.ok.injEq, eq_comm]
  rfl

/-- **What a lowered node is made of.** -/
theorem lowerAt_eq_ok_iff {depth : Nat} {n : SyntaxNode} {raw : RawNode} :
    l.lowerAt depth n = .ok raw ↔
      depth ≤ maxDepth ∧ ∃ placed,
        Places l (l.schema.node? n.kind) (fun c r => l.lowerAt (depth + 1) c = .ok r)
          n.children placed ∧
        l.assemble n placed = .ok raw := by
  obtain ⟨label, children⟩ := n
  rw [lowerAt]
  by_cases hdepth : maxDepth < depth
  · rw [if_pos hdepth]
    refine ⟨fun h => by simp at h, fun h => absurd h.1 (by omega)⟩
  · rw [if_neg hdepth, bind_eq_ok]
    simp only [placeChildren_eq_ok_iff]
    exact ⟨fun h => ⟨by omega, h⟩, fun h => h.2⟩

/-- **Induction over a lowering**: what holds of a node whenever it holds of its kept children
holds of every lowered node. -/
theorem lowerAt_induct {P : SyntaxNode → RawNode → Prop}
    (step : ∀ n placed raw, Places l (l.schema.node? n.kind) P n.children placed →
      l.assemble n placed = .ok raw → P n raw) (depth : Nat) (n : SyntaxNode) (raw : RawNode)
    (h : l.lowerAt depth n = .ok raw) : P n raw := by
  induction n using SyntaxNode.induct generalizing depth raw with
  | step n ih =>
    obtain ⟨-, placed, hplaced, hraw⟩ := lowerAt_eq_ok_iff.1 h
    exact step n placed raw (hplaced.imp fun c hc _ _ _ r => ih c hc (depth + 1) r) hraw

end Lowering

/-! ## What is added to a node -/

/-- The value is nothing, an empty list or a scalar. -/
inductive RawValue.IsBare : RawValue → Prop
  | null : IsBare .null
  | emptyList : IsBare (.list [])
  | scalar (s : Scalar) : IsBare (.scalar s)

theorem bare_of_mem_emptyFields {schema : Option NodeSchema} {placed : List Placed} :
    ∀ f ∈ emptyFields schema placed, f.2.IsBare := by
  intro f hf
  cases schema with
  | none => exact absurd hf List.not_mem_nil
  | some s =>
    obtain ⟨⟨name, shape⟩, -, rfl⟩ := List.mem_map.1 hf
    cases shape with
    | scalar => exact .null
    | child => exact .null
    | childList => exact .emptyList

def positionNames : List String := ["start_line", "start_col", "end_line", "end_col"]

theorem map_fst_positionFields (span : Span) :
    (positionFields span).map (·.1) = positionNames := rfl

theorem bare_of_mem_positionFields {span : Span} : ∀ f ∈ positionFields span, f.2.IsBare := by
  intro f hf
  simp only [positionFields, List.mem_cons, List.not_mem_nil, or_false] at hf
  rcases hf with rfl | rfl | rfl | rfl <;> exact .scalar _

namespace Lowering

/-- There is a text attribute at most on a node without a field of that name. -/
theorem leafText_cases {l : Lowering} {label : NodeLabel} {raw : RawNode}
    {text : List (String × RawValue)} (h : l.leafText label raw = .ok text) :
    text = [] ∨
      (raw.field? textField = none ∧ ∃ t, text = [(textField, .scalar (.str t))]) := by
  rw [leafText] at h
  split at h
  · rename_i hwants
    refine Or.inr ⟨Option.isNone_iff_eq_none.1 (Bool.and_eq_true_iff.1 hwants).2, ?_⟩
    cases ht : l.text label with
    | error e =>
      rw [ht] at h
      cases h
    | ok t =>
      rw [ht] at h
      cases h
      exact ⟨t, rfl⟩
  · cases h
    exact Or.inl rfl

theorem name_of_mem_leafText {l : Lowering} {label : NodeLabel} {raw : RawNode}
    {text : List (String × RawValue)} (h : l.leafText label raw = .ok text) :
    ∀ f ∈ text, f.1 = textField := by
  intro f hf
  rcases leafText_cases h with rfl | ⟨-, t, rfl⟩
  · exact absurd hf List.not_mem_nil
  · rw [List.mem_singleton.1 hf]

theorem bare_of_mem_leafText {l : Lowering} {label : NodeLabel} {raw : RawNode}
    {text : List (String × RawValue)} (h : l.leafText label raw = .ok text) :
    ∀ f ∈ text, f.2.IsBare := by
  intro f hf
  rcases leafText_cases h with rfl | ⟨-, t, rfl⟩
  · exact absurd hf List.not_mem_nil
  · rw [List.mem_singleton.1 hf]
    exact .scalar _

theorem bare_of_mem_positionsOf {l : Lowering} {n : SyntaxNode} :
    ∀ f ∈ l.positionsOf n, f.2.IsBare := by
  unfold positionsOf
  split
  · exact bare_of_mem_positionFields
  · exact fun f hf => absurd hf List.not_mem_nil

/-- A lowered node has what was placed in it, and fields that hold no node. -/
theorem fields_of_assemble {l : Lowering} {n : SyntaxNode} {placed : List Placed} {raw : RawNode}
    (h : l.assemble n placed = .ok raw) :
    raw.kind = n.kind ∧
      ∃ added, raw.fields = placedFields placed ++ added ∧ ∀ f ∈ added, f.2.IsBare := by
  obtain ⟨text, htext, rfl⟩ := assemble_eq_ok_iff.1 h
  refine ⟨rfl, emptyFields (l.schema.node? n.kind) placed ++ text ++ l.positionsOf n, ?_,
    fun f hf => ?_⟩
  · simp only [ownFields, List.append_assoc]
  · rw [List.mem_append, List.mem_append] at hf
    rcases hf with (hf | hf) | hf
    · exact bare_of_mem_emptyFields f hf
    · exact bare_of_mem_leafText htext f hf
    · exact bare_of_mem_positionsOf f hf

end Lowering

/-! ## Fields by name -/

theorem lookup_map_key {β : Type} (f : String → β) (keys : List String) (k : String) :
    (keys.map fun key => (key, f key)).lookup k = if k ∈ keys then some (f k) else none := by
  induction keys with
  | nil => rfl
  | cons key rest ih =>
    rw [List.map_cons, SortedMap.lookup_cons_ite, ih]
    by_cases h : k = key
    · subst h
      simp
    · simp [h]

/-- The shape that settles a field: that of the first placement under its name. -/
def settledShape (placed : List Placed) (field : String) : FieldShape :=
  ((placed.filter (·.field = field)).head?.map (·.shape)).getD .scalar

theorem map_fst_placedFields (placed : List Placed) :
    (placedFields placed).map (·.1) = (placed.map (·.field)).eraseDups := by
  rw [placedFields, List.map_map]
  exact List.map_id' _

theorem mem_map_fst_placedFields {placed : List Placed} {name : String} :
    name ∈ (placedFields placed).map (·.1) ↔ name ∈ placed.map (·.field) := by
  rw [map_fst_placedFields, List.mem_eraseDups]

theorem exists_placed_of_mem {placed : List Placed} {f : String × RawValue}
    (h : f ∈ placedFields placed) : ∃ p ∈ placed, p.field = f.1 :=
  List.mem_map.1 (mem_map_fst_placedFields.1 (List.mem_map_of_mem h))

theorem any_field_eq_true_iff {placed : List Placed} {name : String} :
    placed.any (·.field = name) = true ↔ name ∈ placed.map (·.field) := by
  simp

/-- A placed field holds all that was placed under its name. -/
theorem lookup_placedFields (placed : List Placed) (name : String) :
    (placedFields placed).lookup name =
      if name ∈ placed.map (·.field) then
        some (fieldValue (settledShape placed name)
          ((placed.filter (·.field = name)).map (·.value)))
      else none := by
  rw [placedFields, lookup_map_key]
  simp only [List.mem_eraseDups, settledShape]

end SyntaxGraph
