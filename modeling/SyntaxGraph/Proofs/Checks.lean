import SyntaxGraph.Proofs.Lowering
import SyntaxGraph.SourceParser

/-!
# What lowering checks on its way

Lowering can fail at two things: a node that it enters too deep, and a byte range that is no slice
of the source. `Lowering.checks` lists them in the order of the walk: the level of a node on
entering it, then what its children ask for, and last its own text if it is to have one. Whether
it is, is said of the children alone: `Lowering.outline` is the node with blank values in its
fields, and its text is wanted if there is no node among them and no field of that name.

Main statement: `lowerAt_eq_error_iff`, a lowering fails exactly with the failure of the first
check that fails.
-/

namespace SyntaxGraph

/-! ## First failures -/

section

variable {ε α β γ : Type} {x : Except ε α} {o o' : Option ε} {e : ε}

theorem exists_eq_ok_iff (h : ∀ e, x = .error e ↔ o = some e) : (∃ a, x = .ok a) ↔ o = none := by
  cases x with
  | ok a =>
    refine iff_of_true ⟨a, rfl⟩ ?_
    cases ho : o with
    | none => rfl
    | some e => exact absurd ((h e).2 ho) nofun
  | error e =>
    have ho := (h e).1 rfl
    exact iff_of_false nofun (by rw [ho]; exact nofun)

/-- The failure of a step, or else of what follows it. -/
theorem bind_eq_error_iff {f : α → Except ε β} (hx : ∀ e, x = .error e ↔ o = some e)
    (hf : ∀ a, x = .ok a → (f a = .error e ↔ o' = some e)) :
    (x >>= f) = .error e ↔ o.or o' = some e := by
  rw [bind_eq_error, hx, Option.or_eq_some_iff, ← exists_eq_ok_iff hx]
  refine or_congr_right ?_
  constructor
  · rintro ⟨a, ha, h⟩
    exact ⟨⟨a, ha⟩, (hf a ha).1 h⟩
  · rintro ⟨⟨a, ha⟩, h⟩
    exact ⟨a, ha, (hf a ha).2 h⟩

theorem bind_pure_eq_error {f : α → β} : (do return f (← x)) = Except.error e ↔ x = .error e := by
  cases x <;> simp [bind, Except.bind, pure, Except.pure]

end

/-! ## Fields of changed values -/

/-- A placement with another value. -/
def Placed.map (g : RawValue → RawValue) (p : Placed) : Placed := { p with value := g p.value }

theorem filter_map_placed (g : RawValue → RawValue) (placed : List Placed) (name : String) :
    (placed.map (Placed.map g)).filter (·.field = name) =
      (placed.filter (·.field = name)).map (Placed.map g) := by
  rw [List.filter_map]
  rfl

theorem field_map_placed (g : RawValue → RawValue) (placed : List Placed) :
    (placed.map (Placed.map g)).map (·.field) = placed.map (·.field) := by
  rw [List.map_map]
  rfl

theorem settledShape_map (g : RawValue → RawValue) (placed : List Placed) (name : String) :
    settledShape (placed.map (Placed.map g)) name = settledShape placed name := by
  rw [settledShape, settledShape, filter_map_placed, List.head?_map]
  cases (placed.filter (·.field = name)).head? <;> rfl

/-- The names and shapes of the fields do not depend on the values. -/
theorem placedFields_map (g : RawValue → RawValue) (placed : List Placed) :
    placedFields (placed.map (Placed.map g)) =
      (placed.map (·.field)).eraseDups.map fun name =>
        (name, fieldValue (settledShape placed name)
          (((placed.filter (·.field = name)).map (·.value)).map g)) := by
  rw [placedFields, field_map_placed]
  refine List.map_congr_left fun name _ => ?_
  show (name, fieldValue (settledShape (placed.map (Placed.map g)) name)
    (((placed.map (Placed.map g)).filter (·.field = name)).map (·.value))) = _
  rw [settledShape_map, filter_map_placed, List.map_map, List.map_map]
  rfl

theorem emptyFields_map (g : RawValue → RawValue) (schema : Option NodeSchema)
    (placed : List Placed) :
    emptyFields schema (placed.map (Placed.map g)) = emptyFields schema placed := by
  cases schema with
  | none => rfl
  | some s =>
    simp only [emptyFields, List.any_map]
    rfl

/-! ## Outlines -/

/-- A blank value that is a node if the value is one. -/
def RawValue.outline (v : RawValue) : RawValue :=
  if v.isNode then .node "" [] else .scalar (.str "")

theorem RawValue.isNode_outline (v : RawValue) : v.outline.isNode = v.isNode := by
  rw [outline]
  cases v.isNode <;> rfl

/-- The value is no list, so it holds a node only by being one. -/
def RawValue.IsItem (v : RawValue) : Prop := v.holdsNode = v.isNode

theorem RawValue.isItem_outline (v : RawValue) : v.outline.IsItem := by
  rw [outline]
  cases v.isNode <;> rfl

/-- A field holds a node if it is a field of nodes and a node was placed in it. -/
theorem holdsNode_fieldValue (shape : FieldShape) {values : List RawValue}
    (items : ∀ v ∈ values, v.IsItem) :
    (fieldValue shape values).holdsNode = (shape != .scalar && values.any RawValue.isNode) := by
  match shape, values with
  | .scalar, _ => rfl
  | .child, [] => rfl
  | .child, [v] =>
    have hv : v.holdsNode = v.isNode := items v List.mem_cons_self
    simp [fieldValue, hv]
  | .child, _ :: _ :: _ => rfl
  | .childList, _ => rfl

theorem holdsNode_outline (shape : FieldShape) {values : List RawValue}
    (items : ∀ v ∈ values, v.IsItem) :
    (fieldValue shape (values.map RawValue.outline)).holdsNode =
      (fieldValue shape values).holdsNode := by
  have houtlines : ∀ v ∈ values.map RawValue.outline, v.IsItem := by
    intro v hv
    obtain ⟨w, -, rfl⟩ := List.mem_map.1 hv
    exact w.isItem_outline
  rw [holdsNode_fieldValue shape houtlines, holdsNode_fieldValue shape items, List.any_map]
  simp only [Function.comp_def, RawValue.isNode_outline]

namespace Lowering

variable {l : Lowering}

/-- The placements of the children of a node, with blank values. -/
def outlines (l : Lowering) (schema : Option NodeSchema) : List SyntaxNode → List Placed
  | [] => []
  | child :: rest =>
    match placement l.options schema child.label with
    | .ignored => l.outlines schema rest
    | .token field => ⟨field, .scalar, .scalar (.str "")⟩ :: l.outlines schema rest
    | .kept field shape => ⟨field, shape, .node "" []⟩ :: l.outlines schema rest

/-- A node with blank values in its fields. -/
def outline (l : Lowering) (n : SyntaxNode) : RawNode :=
  ⟨n.kind, l.ownFields n.kind (l.outlines (l.schema.node? n.kind) n.children)⟩

/-- The text of a node is wanted: it has no child node and no field of that name. -/
def wantsText (l : Lowering) (n : SyntaxNode) : Bool :=
  l.options.includeLeafText && !(l.outline n).hasNodeChildren &&
    ((l.outline n).field? textField).isNone

section

variable {schema : Option NodeSchema} {R : SyntaxNode → RawNode → Prop}
  {children : List SyntaxNode} {placed : List Placed}

theorem Places.isItem (h : Places l schema R children placed) : ∀ p ∈ placed, p.value.IsItem := by
  induction h with
  | nil => exact fun p hp => absurd hp List.not_mem_nil
  | ignored _ _ ih => exact ih
  | token _ _ _ ih => exact List.forall_mem_cons.2 ⟨rfl, ih⟩
  | kept _ _ _ ih => exact List.forall_mem_cons.2 ⟨rfl, ih⟩

theorem Places.outlines_eq (h : Places l schema R children placed) :
    l.outlines schema children = placed.map (Placed.map RawValue.outline) := by
  induction h with
  | nil => rfl
  | ignored hp _ ih => rw [outlines, hp]; exact ih
  | token hp _ _ ih => rw [outlines, hp, List.map_cons, ← ih]; rfl
  | kept hp _ _ ih => rw [outlines, hp, List.map_cons, ← ih]; rfl

end

section

variable {n : SyntaxNode} {placed : List Placed} {R : SyntaxNode → RawNode → Prop}

/-- The outline has a node among its fields if the node itself has one. -/
theorem Places.hasNodeChildren_outline
    (h : Places l (l.schema.node? n.kind) R n.children placed) :
    (l.outline n).hasNodeChildren =
      RawNode.hasNodeChildren ⟨n.kind, l.ownFields n.kind placed⟩ := by
  simp only [outline, RawNode.hasNodeChildren, ownFields, h.outlines_eq, emptyFields_map,
    placedFields_map, List.any_append]
  congr 1
  rw [placedFields, List.any_map, List.any_map]
  refine List.any_congr rfl fun name => ?_
  refine holdsNode_outline _ fun v hv => ?_
  obtain ⟨p, hp, rfl⟩ := List.mem_map.1 hv
  exact h.isItem p (List.mem_filter.1 hp).1

theorem Places.field?_outline (h : Places l (l.schema.node? n.kind) R n.children placed)
    (name : String) :
    ((l.outline n).field? name).isNone =
      (RawNode.field? ⟨n.kind, l.ownFields n.kind placed⟩ name).isNone := by
  simp only [outline, RawNode.field?, ownFields, h.outlines_eq, emptyFields_map,
    List.lookup_append, lookup_placedFields, field_map_placed]
  by_cases hname : name ∈ placed.map (·.field)
  · rw [if_pos hname, if_pos hname]
    rfl
  · rw [if_neg hname, if_neg hname]

end

end Lowering

/-! ## Checks -/

/-- Something that a lowering asks for on its way. -/
inductive Check where
  /-- a node that is entered at a level stands no deeper than `maxDepth` -/
  | level (depth : Nat) (node : SyntaxNode)
  /-- the byte range of a node is a slice of the source -/
  | slice (node : SyntaxNode)

/-- How a check fails, if it does. -/
def Check.failure? (source : String) : Check → Option ParseError
  | .level depth n => if maxDepth < depth then some (.fault n.startLine .tooDeep) else none
  | .slice n =>
    if (Text.sliceBytes source n.label.startByte n.label.endByte).isSome then none
    else some (.invalidRange n.kind n.label.startByte n.label.endByte)

namespace Lowering

mutual

/-- The checks of a node that is lowered at a level, in the order of the walk. -/
def checks (l : Lowering) (depth : Nat) : SyntaxNode → List Check
  | ⟨label, children⟩ =>
    .level depth ⟨label, children⟩ ::
      (l.checksBelow (depth + 1) (l.schema.node? label.kind) children ++
        if l.wantsText ⟨label, children⟩ then [.slice ⟨label, children⟩] else [])

/-- The checks of the children of a node, whose level is `depth`. -/
def checksBelow (l : Lowering) (depth : Nat) (schema : Option NodeSchema) :
    List SyntaxNode → List Check
  | [] => []
  | child :: rest =>
    match placement l.options schema child.label with
    | .ignored => l.checksBelow depth schema rest
    | .token _ => .slice child :: l.checksBelow depth schema rest
    | .kept _ _ => l.checks depth child ++ l.checksBelow depth schema rest

end

variable {l : Lowering}

theorem text_eq_error_iff {n : SyntaxNode} {e : ParseError} :
    l.text n.label = .error e ↔ (Check.slice n).failure? l.source = some e := by
  rw [Lowering.text, Check.failure?]
  cases Text.sliceBytes l.source n.label.startByte n.label.endByte with
  | none => simp [SyntaxNode.kind]
  | some text => simp

/-- Putting a node together fails exactly if its text is wanted and is no slice. -/
theorem assemble_eq_error_iff {n : SyntaxNode} {placed : List Placed}
    {R : SyntaxNode → RawNode → Prop} {e : ParseError}
    (h : Places l (l.schema.node? n.kind) R n.children placed) :
    l.assemble n placed = .error e ↔
      (if l.wantsText n then [Check.slice n] else []).findSome? (Check.failure? l.source) =
        some e := by
  have hleaf : l.assemble n placed = .error e ↔
      l.leafText n.label ⟨n.kind, l.ownFields n.kind placed⟩ = .error e := by
    rw [assemble, bind_eq_error]
    constructor
    · rintro (h | ⟨_, -, h⟩)
      · exact h
      · cases h
    · exact Or.inl
  rw [hleaf, leafText, ← h.hasNodeChildren_outline, ← h.field?_outline, ← wantsText]
  by_cases hwants : l.wantsText n
  · rw [if_pos hwants, if_pos hwants, List.findSome?_singleton, ← text_eq_error_iff]
    cases l.text n.label with
    | error e' => simp [Except.map]
    | ok text => simp [Except.map]
  · rw [if_neg hwants, if_neg hwants]
    simp

mutual

/-- **A lowering fails exactly with the failure of its first check that fails.** -/
theorem lowerAt_eq_error_iff (depth : Nat) (e : ParseError) :
    ∀ n : SyntaxNode, l.lowerAt depth n = .error e ↔
      (l.checks depth n).findSome? (Check.failure? l.source) = some e
  | ⟨label, children⟩ => by
    rw [lowerAt, checks, List.findSome?_cons]
    by_cases hdepth : maxDepth < depth
    · rw [if_pos hdepth, Check.failure?, if_pos hdepth]
      simp [SyntaxNode.startLine, SyntaxNode.span]
    · rw [if_neg hdepth, Check.failure?, if_neg hdepth, List.findSome?_append]
      refine bind_eq_error_iff
        (fun e => placeChildren_eq_error_iff (depth + 1) (l.schema.node? label.kind) e children)
        fun placed hplaced => ?_
      exact assemble_eq_error_iff (placeChildren_eq_ok_iff.1 hplaced)

theorem placeChildren_eq_error_iff (depth : Nat) (schema : Option NodeSchema) (e : ParseError) :
    ∀ children : List SyntaxNode, l.placeChildren depth schema children = .error e ↔
      (l.checksBelow depth schema children).findSome? (Check.failure? l.source) = some e
  | [] => by simp [placeChildren, checksBelow]
  | child :: rest => by
    have hrest := placeChildren_eq_error_iff depth schema e rest
    rw [placeChildren, checksBelow]
    cases hp : placement l.options schema child.label with
    | ignored => exact hrest
    | token field =>
      show _ ↔ ([Check.slice child] ++ _).findSome? _ = _
      rw [List.findSome?_append, List.findSome?_singleton]
      refine bind_eq_error_iff (fun e => text_eq_error_iff) fun text _ => ?_
      rw [bind_pure_eq_error]
      exact hrest
    | kept field shape =>
      rw [List.findSome?_append]
      refine bind_eq_error_iff (fun e => lowerAt_eq_error_iff depth e child) fun raw _ => ?_
      rw [bind_pure_eq_error]
      exact hrest

end

theorem exists_lowerAt_iff {depth : Nat} {n : SyntaxNode} :
    (∃ raw, l.lowerAt depth n = .ok raw) ↔
      (l.checks depth n).findSome? (Check.failure? l.source) = none :=
  exists_eq_ok_iff fun e => lowerAt_eq_error_iff depth e n

end Lowering

end SyntaxGraph
