import Mathlib.Data.List.Forall2
import SyntaxGraph.Proofs.Lowering

/-!
# Where the children of a node are filed

`filedUnder?` says of a child, without the walk, under which field it is kept. Of a child that
agrees with the schema of its parent (`Fits`), this is where it is placed (`Fits.settled`): it is
kept under the field it is filed under, its text goes into a field of tokens, or it is left out.

So under every name all placements are of one sort, texts or nodes, and the shape of the first,
which settles the field, is right for all (`Places.tokens`, `Places.nodes`).
-/

namespace SyntaxGraph

/-! ## Filing a child -/

/-- The shape that a schema gives to a field. -/
def shapeIn? (schema : Option NodeSchema) (field : String) : Option FieldShape :=
  schema.bind fun s => s.fields.get? field

/-- The field that a child is filed under, if it is kept: a comment, when comments are wanted,
under its own field; a named child without a field under another; and a named child in a field
of nodes under that field. -/
def filedUnder? (options : TreeOptions) (schema : Option NodeSchema) (child : NodeLabel) :
    Option String :=
  if child.isExtra then
    if child.kind = "comment" ∧ options.includeComments then some commentsField else none
  else if child.isNamed then
    match child.field with
    | none => some unnamedField
    | some field =>
      if shapeIn? schema field = some .child ∨ shapeIn? schema field = some .childList then
        some field
      else none
  else none

/-- A child agrees with the schema of its parent: its field is a field of the schema, and not one
of the two that lowering adds; and children without a field are not tokens. -/
def Fits (schema : Option NodeSchema) (child : NodeLabel) : Prop :=
  schema.bind (·.children) ≠ some .scalar ∧
    (child.isExtra = false → ∀ field ∈ child.field,
      (shapeIn? schema field).isSome ∧ field ≠ unnamedField ∧ field ≠ commentsField)

instance (schema : Option NodeSchema) (child : NodeLabel) : Decidable (Fits schema child) :=
  inferInstanceAs (Decidable (_ ∧ _))

/-- The child is one of the tokens of a field. -/
def isTokenOf (field : String) (child : NodeLabel) : Bool :=
  !child.isExtra && child.field = some field

/-! ## One child -/

/-- A field of tokens, and not one of the two that lowering adds. -/
def IsTokenField (schema : Option NodeSchema) (field : String) : Prop :=
  shapeIn? schema field = some .scalar ∧ field ≠ unnamedField ∧ field ≠ commentsField

section

variable {options : TreeOptions} {schema : Option NodeSchema} {child : NodeLabel}
  {field : String} {shape : FieldShape}

/-- What becomes of a child that agrees with the schema. -/
inductive Settled (options : TreeOptions) (schema : Option NodeSchema) (child : NodeLabel) : Prop
  /-- it is kept under the field it is filed under, which is no field of tokens -/
  | kept (field : String) (shape : FieldShape)
      (placed : placement options schema child = .kept field shape) (nodes : shape ≠ .scalar)
      (filed : filedUnder? options schema child = some field)
      (others : ¬ IsTokenField schema field)
      (noToken : ∀ f, IsTokenField schema f → isTokenOf f child = false)
  /-- it is a token, and its text is kept -/
  | token (field : String) (placed : placement options schema child = .token field)
      (filed : filedUnder? options schema child = none) (tokens : IsTokenField schema field)
      (isToken : ∀ f, isTokenOf f child = decide (f = field))
  | ignored (placed : placement options schema child = .ignored)
      (filed : filedUnder? options schema child = none)
      (noToken : ∀ f, IsTokenField schema f → isTokenOf f child = false)

theorem isTokenOf_eq_true :
    isTokenOf field child = true ↔ child.isExtra = false ∧ child.field = some field := by
  simp [isTokenOf]

theorem fieldShape_eq (h : shapeIn? schema field = some shape) :
    fieldShape schema field child = shape := by
  show (shapeIn? schema field).getD _ = shape
  rw [h, Option.getD_some]

theorem settled_extra (hextra : child.isExtra = true) : Settled options schema child := by
  have hno : ∀ f, IsTokenField schema f → isTokenOf f child = false := fun f _ => by
    rw [isTokenOf, hextra, Bool.not_true, Bool.false_and]
  by_cases hcomment : child.kind = "comment" ∧ options.includeComments
  · refine .kept commentsField .childList ?_ nofun ?_ (fun h => h.2.2 rfl) hno
    · simp [placement, hextra, hcomment]
    · simp [filedUnder?, hextra, hcomment]
  · refine .ignored ?_ ?_ hno
    · simp only [placement, hextra, if_true]
      rw [if_neg]
      simpa [and_comm] using hcomment
    · simp [filedUnder?, hextra, hcomment]

theorem settled_unnamed (fits : Fits schema child) (hextra : child.isExtra = false)
    (hfield : child.field = none) : Settled options schema child := by
  have hno : ∀ f, IsTokenField schema f → isTokenOf f child = false := fun f _ => by
    simp [isTokenOf, hfield]
  cases hnamed : child.isNamed with
  | true =>
    refine .kept unnamedField ((schema.bind (·.children)).getD .childList) ?_ ?_ ?_
      (fun h => h.2.1 rfl) hno
    · simp [placement, hextra, hfield, hnamed]
    · have hchildren := fits.1
      cases hc : schema.bind (·.children) with
      | none => exact nofun
      | some shape =>
        rintro rfl
        exact hchildren hc
    · simp [filedUnder?, hextra, hfield, hnamed]
  | false =>
    refine .ignored ?_ ?_ hno
    · simp [placement, hextra, hfield, hnamed]
    · simp [filedUnder?, hextra, hnamed]

theorem settled_fielded (fits : Fits schema child) (hextra : child.isExtra = false)
    (hfield : child.field = some field) : Settled options schema child := by
  obtain ⟨hshape, hname⟩ := fits.2 hextra field hfield
  obtain ⟨shape, hshape⟩ := Option.isSome_iff_exists.1 hshape
  have hplace : placement options schema child =
      if shape = .scalar then .token field
      else if child.isNamed then .kept field shape else .ignored := by
    have hshape : fieldShape schema field child = shape := fieldShape_eq hshape
    cases shape <;> simp [placement, hextra, hfield, hshape]
  have hfiled : filedUnder? options schema child =
      if child.isNamed ∧ shape ≠ .scalar then some field else none := by
    cases hnamed : child.isNamed <;> cases shape <;>
      simp [filedUnder?, hextra, hfield, hnamed, hshape]
  have htoken : ∀ f, isTokenOf f child = decide (f = field) := fun f => by
    simp [isTokenOf, hextra, hfield, eq_comm]
  by_cases hs : shape = .scalar
  · subst hs
    refine .token field ?_ ?_ ⟨hshape, hname⟩ htoken
    · rw [hplace, if_pos rfl]
    · rw [hfiled, if_neg fun h => h.2 rfl]
  · have hother : ¬ IsTokenField schema field := fun h =>
      hs (Option.some.inj (hshape.symm.trans h.1))
    have hno : ∀ f, IsTokenField schema f → isTokenOf f child = false := fun f hf => by
      rw [htoken, decide_eq_false_iff_not]
      rintro rfl
      exact hother hf
    cases hnamed : child.isNamed with
    | true =>
      refine .kept field shape ?_ hs ?_ hother hno
      · rw [hplace, if_neg hs, if_pos hnamed]
      · rw [hfiled, if_pos ⟨hnamed, hs⟩]
    | false =>
      refine .ignored ?_ ?_ hno
      · rw [hplace, if_neg hs, hnamed, if_neg Bool.false_ne_true]
      · rw [hfiled, hnamed, if_neg fun h => Bool.false_ne_true h.1]

theorem Fits.settled (options : TreeOptions) (fits : Fits schema child) :
    Settled options schema child := by
  cases hextra : child.isExtra with
  | true => exact settled_extra hextra
  | false =>
    cases hfield : child.field with
    | none => exact settled_unnamed fits hextra hfield
    | some field => exact settled_fielded fits hextra hfield

theorem Fits.of_ignored (fits : Fits schema child)
    (hp : placement options schema child = .ignored) :
    filedUnder? options schema child = none ∧
      ∀ f, IsTokenField schema f → isTokenOf f child = false := by
  cases fits.settled options with
  | kept _ _ placed => exact absurd (placed.symm.trans hp) nofun
  | token _ placed => exact absurd (placed.symm.trans hp) nofun
  | ignored _ filed noToken => exact ⟨filed, noToken⟩

theorem Fits.of_token (fits : Fits schema child)
    (hp : placement options schema child = .token field) :
    filedUnder? options schema child = none ∧ IsTokenField schema field ∧
      ∀ f, isTokenOf f child = decide (f = field) := by
  cases fits.settled options with
  | kept _ _ placed => exact absurd (placed.symm.trans hp) nofun
  | token _ placed filed tokens isToken =>
    cases placed.symm.trans hp
    exact ⟨filed, tokens, isToken⟩
  | ignored placed => exact absurd (placed.symm.trans hp) nofun

theorem Fits.of_kept (fits : Fits schema child)
    (hp : placement options schema child = .kept field shape) :
    filedUnder? options schema child = some field ∧ shape ≠ .scalar ∧
      ¬ IsTokenField schema field ∧ ∀ f, IsTokenField schema f → isTokenOf f child = false := by
  cases fits.settled options with
  | kept _ _ placed nodes filed others noToken =>
    cases placed.symm.trans hp
    exact ⟨filed, nodes, others, noToken⟩
  | token _ placed => exact absurd (placed.symm.trans hp) nofun
  | ignored placed => exact absurd (placed.symm.trans hp) nofun

end

/-! ## What is placed under one name -/

/-- The placement is a text in a field of tokens, or a node in another field. -/
inductive Placed.Sorted (schema : Option NodeSchema) (p : Placed) : Prop
  | text (tokens : IsTokenField schema p.field) (shape : p.shape = .scalar)
      (bare : p.value.IsBare)
  | node (others : ¬ IsTokenField schema p.field) (shape : p.shape ≠ .scalar) (raw : RawNode)
      (value : p.value = raw.toValue)

theorem Placed.Sorted.shape_iff {schema : Option NodeSchema} {p : Placed} (h : p.Sorted schema) :
    p.shape = .scalar ↔ IsTokenField schema p.field := by
  cases h with
  | text tokens shape _ => exact iff_of_true shape tokens
  | node others shape _ _ => exact iff_of_false shape others

namespace Lowering

section

variable {l : Lowering} {schema : Option NodeSchema} {R : SyntaxNode → RawNode → Prop}
  {children : List SyntaxNode} {placed : List Placed}

/-- Every placement is of the sort that its name calls for. -/
theorem Places.sorted (h : Places l schema R children placed)
    (fits : ∀ c ∈ children, Fits schema c.label) : ∀ p ∈ placed, p.Sorted schema := by
  induction h with
  | nil => exact fun p hp => absurd hp List.not_mem_nil
  | ignored _ _ ih => exact ih (List.forall_mem_cons.1 fits).2
  | token hp _ _ ih =>
    obtain ⟨fit, fits⟩ := List.forall_mem_cons.1 fits
    exact List.forall_mem_cons.2 ⟨.text (fit.of_token hp).2.1 rfl (.scalar _), ih fits⟩
  | kept hp _ _ ih =>
    obtain ⟨fit, fits⟩ := List.forall_mem_cons.1 fits
    obtain ⟨-, hshape, hfield, -⟩ := fit.of_kept hp
    exact List.forall_mem_cons.2 ⟨.node hfield hshape _ rfl, ih fits⟩

/-- Under a name of tokens stand their texts, in document order. -/
theorem Places.tokens (h : Places l schema R children placed)
    (fits : ∀ c ∈ children, Fits schema c.label) {field : String}
    (hfield : IsTokenField schema field) :
    ∃ texts, List.Forall₂ (fun c text => l.textOf? c = some text)
        (children.filter fun c => isTokenOf field c.label) texts ∧
      (placed.filter (·.field = field)).map (·.value) =
        texts.map fun text => RawValue.scalar (.str text) := by
  induction h with
  | nil => exact ⟨[], .nil, rfl⟩
  | ignored hp _ ih =>
    obtain ⟨fit, fits⟩ := List.forall_mem_cons.1 fits
    rw [List.filter_cons_of_neg (by simp [(fit.of_ignored hp).2 field hfield])]
    exact ih fits
  | @token c rest placed name text hp ht _ ih =>
    obtain ⟨fit, fits⟩ := List.forall_mem_cons.1 fits
    obtain ⟨-, -, htoken⟩ := fit.of_token hp
    obtain ⟨texts, htexts, hvalues⟩ := ih fits
    by_cases hname : field = name
    · subst hname
      rw [List.filter_cons_of_pos (by simp [htoken]), List.filter_cons_of_pos (by simp)]
      exact ⟨text :: texts, .cons (text_eq_ok_iff.1 ht) htexts, by rw [List.map_cons, hvalues]; rfl⟩
    · rw [List.filter_cons_of_neg (by simp [htoken, hname]),
        List.filter_cons_of_neg (by simpa using fun h => hname h.symm)]
      exact ⟨texts, htexts, hvalues⟩
  | @kept c rest placed name shape raw hp _ _ ih =>
    -- the child is a token of no such field, and is placed under a name of nodes
    obtain ⟨fit, fits⟩ := List.forall_mem_cons.1 fits
    obtain ⟨-, -, hother, hno⟩ := fit.of_kept hp
    have hname : name ≠ field := by
      rintro rfl
      exact hother hfield
    rw [List.filter_cons_of_neg (by simp [hno field hfield]),
      List.filter_cons_of_neg (by simpa using hname)]
    exact ih fits

/-- Under another name stand the raw nodes of the children filed there, in document order. -/
theorem Places.nodes (h : Places l schema R children placed)
    (fits : ∀ c ∈ children, Fits schema c.label) {field : String}
    (hfield : ¬ IsTokenField schema field) :
    ∃ raws, List.Forall₂ R
        (children.filter fun c => filedUnder? l.options schema c.label = some field) raws ∧
      (placed.filter (·.field = field)).map (·.value) = raws.map RawNode.toValue := by
  induction h with
  | nil => exact ⟨[], .nil, rfl⟩
  | ignored hp _ ih =>
    obtain ⟨fit, fits⟩ := List.forall_mem_cons.1 fits
    rw [List.filter_cons_of_neg (by simp [(fit.of_ignored hp).1])]
    exact ih fits
  | @token c rest placed name text hp _ _ ih =>
    -- the child is filed nowhere, and its text is placed under a name of tokens
    obtain ⟨fit, fits⟩ := List.forall_mem_cons.1 fits
    obtain ⟨hfiled, htokens, -⟩ := fit.of_token hp
    have hname : name ≠ field := by
      rintro rfl
      exact hfield htokens
    rw [List.filter_cons_of_neg (by simp [hfiled]), List.filter_cons_of_neg (by simpa using hname)]
    exact ih fits
  | @kept c rest placed name shape raw hp hR _ ih =>
    obtain ⟨fit, fits⟩ := List.forall_mem_cons.1 fits
    obtain ⟨hfiled, -⟩ := fit.of_kept hp
    obtain ⟨raws, hraws, hvalues⟩ := ih fits
    by_cases hname : name = field
    · subst hname
      rw [List.filter_cons_of_pos (by simp [hfiled]), List.filter_cons_of_pos (by simp)]
      exact ⟨raw :: raws, .cons hR hraws, by rw [List.map_cons, hvalues]; rfl⟩
    · rw [List.filter_cons_of_neg (by simp [hfiled, hname]),
        List.filter_cons_of_neg (by simpa using hname)]
      exact ⟨raws, hraws, hvalues⟩

theorem filter_filedUnder_eq_nil (fits : ∀ c ∈ children, Fits schema c.label) {field : String}
    (hfield : IsTokenField schema field) :
    (children.filter fun c => filedUnder? l.options schema c.label = some field) = [] := by
  rw [List.filter_eq_nil_iff]
  intro c hc hfiled
  have hfiled := of_decide_eq_true hfiled
  cases (fits c hc).settled l.options with
  | kept name _ _ _ filed others =>
    rw [filed, Option.some.injEq] at hfiled
    exact others (hfiled ▸ hfield)
  | token _ _ filed => exact absurd (filed.symm.trans hfiled) nofun
  | ignored _ filed => exact absurd (filed.symm.trans hfiled) nofun

end

end Lowering

/-! ## What a field holds -/


/-- The nodes that a value holds: itself, or the nodes among its items. -/
def RawValue.heldNodes : RawValue → List RawNode
  | .list items => items.filterMap asNode?
  | v => v.asNode?.toList

/-- The nodes that a field of a node holds. -/
def RawNode.nodesIn (n : RawNode) (field : String) : List RawNode :=
  ((n.field? field).map RawValue.heldNodes).getD []

theorem heldNodes_fieldValue_scalar (values : List RawValue) :
    (fieldValue .scalar values).heldNodes = [] := rfl

theorem filterMap_asNode?_toValue (raws : List RawNode) :
    (raws.map RawNode.toValue).filterMap RawValue.asNode? = raws := by
  rw [List.filterMap_map]
  exact List.filterMap_some

/-- A field of nodes holds the nodes that were placed in it. -/
theorem heldNodes_fieldValue {shape : FieldShape} (hs : shape ≠ .scalar) {values : List RawValue}
    (items : ∀ v ∈ values, v.heldNodes = v.asNode?.toList) :
    (fieldValue shape values).heldNodes = values.filterMap RawValue.asNode? := by
  match shape, values with
  | .child, [] => rfl
  | .child, [v] =>
    rw [fieldValue, items v List.mem_cons_self]
    cases hv : v.asNode? <;> simp [hv]
  | .child, _ :: _ :: _ => rfl
  | .childList, _ => rfl

/-- A field of tokens holds their texts with blanks between them. -/
theorem fieldValue_scalar (texts : List String) :
    fieldValue .scalar (texts.map fun text => .scalar (.str text)) =
      .scalar (.str (" ".intercalate texts)) := by
  rw [fieldValue, List.filterMap_map]
  exact congrArg (fun ts => RawValue.scalar (.str (" ".intercalate ts))) List.filterMap_some

theorem heldNodes_of_isBare {v : RawValue} (h : v.IsBare) : v.heldNodes = [] := by
  cases h <;> rfl

theorem lookup_heldNodes_of_isBare {fields : List (String × RawValue)}
    (h : ∀ f ∈ fields, f.2.IsBare) (name : String) :
    ((fields.lookup name).map RawValue.heldNodes).getD [] = [] := by
  cases hv : fields.lookup name with
  | none => rfl
  | some v =>
    obtain ⟨before, after, rfl, -⟩ := List.lookup_eq_some_iff.1 hv
    exact heldNodes_of_isBare (h (name, v) (by simp))

/-- A node holds under a name what the placements under that name come to. -/
theorem nodesIn_of_assemble {l : Lowering} {n : SyntaxNode} {placed : List Placed} {raw : RawNode}
    (h : l.assemble n placed = .ok raw) (field : String) :
    raw.nodesIn field =
      (fieldValue (settledShape placed field)
        ((placed.filter (·.field = field)).map (·.value))).heldNodes := by
  obtain ⟨-, added, hfields, hadded⟩ := Lowering.fields_of_assemble h
  rw [RawNode.nodesIn, RawNode.field?, hfields, List.lookup_append, lookup_placedFields]
  by_cases hname : field ∈ placed.map (·.field)
  · rw [if_pos hname]
    rfl
  · have hnone : placed.filter (·.field = field) = [] := by
      rw [List.filter_eq_nil_iff]
      exact fun p hp hpf => hname (List.mem_map.2 ⟨p, hp, of_decide_eq_true hpf⟩)
    rw [if_neg hname, Option.none_or, lookup_heldNodes_of_isBare hadded, settledShape, hnone]
    rfl

theorem settledShape_cases (placed : List Placed) (field : String) :
    (placed.filter (·.field = field) = [] ∧ settledShape placed field = .scalar) ∨
      ∃ p ∈ placed, p.field = field ∧ settledShape placed field = p.shape := by
  rw [settledShape]
  cases hsame : placed.filter (·.field = field) with
  | nil => exact .inl ⟨rfl, rfl⟩
  | cons p rest =>
    have hp : p ∈ placed.filter (·.field = field) := hsame ▸ List.mem_cons_self
    obtain ⟨hmem, hfield⟩ := List.mem_filter.1 hp
    exact .inr ⟨p, hmem, of_decide_eq_true hfield, rfl⟩

theorem settledShape_tokens {schema : Option NodeSchema} {placed : List Placed} {field : String}
    (sorted : ∀ p ∈ placed, p.Sorted schema) (hfield : IsTokenField schema field) :
    settledShape placed field = .scalar := by
  rcases settledShape_cases placed field with ⟨-, h⟩ | ⟨p, hp, hname, h⟩
  · exact h
  · rw [h, (sorted p hp).shape_iff, hname]
    exact hfield

end SyntaxGraph
