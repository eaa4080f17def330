import SyntaxGraph.Proofs.Acceptance
import SyntaxGraph.Proofs.KeptNodes

/-!
# Which lowered nodes are found in the raw tree

The first child placed under a name settles the shape of the field. If it is the shape of a field
of tokens, a node that comes to the same name is lowered, with everything that is kept below it,
and then left out, since such a field holds texts only: it is `lost`. This takes a child that does
not agree with the schema of its parent: an unknown field where a token comes first, a field of
tokens of the name `children` or `comments`, or children without a field that are tokens by the
schema.

`survivors` are the lowered nodes without what is lost and stands below it. They are all that the
raw tree has, and the other lowered nodes are the subtrees of what the survivors lose.

Main statement: `lower_survivors`.
-/

namespace SyntaxGraph

/-- The field under which a child is placed as a node. -/
def Placement.keptField? : Placement → Option String
  | .kept field _ => some field
  | _ => none

/-- The blank value that a child leaves in a field. -/
def Placement.outline? : Placement → Option Placed
  | .ignored => none
  | .token field => some ⟨field, .scalar, .scalar (.str "")⟩
  | .kept field shape => some ⟨field, shape, .node "" []⟩

theorem Placement.keptField?_eq_some_iff {p : Placement} {field : String} :
    p.keptField? = some field ↔ ∃ shape, p = .kept field shape := by
  cases p <;> simp [keptField?]

namespace Lowering

/-! ## Lost children -/

/-- The shape of a field of a node: that of the first child placed under its name. -/
def shapeOf (l : Lowering) (n : SyntaxNode) (field : String) : FieldShape :=
  settledShape (l.outlines (l.schema.node? n.kind) n.children) field

/-- The field of a node under which a child of it is placed as a node. -/
def fieldOf? (l : Lowering) (n c : SyntaxNode) : Option String :=
  (placement l.options (l.schema.node? n.kind) c.label).keptField?

/-- The children of a node that are lowered for a field of nodes. -/
def heldIn (l : Lowering) (n : SyntaxNode) (field : String) : List SyntaxNode :=
  n.children.filter fun c => l.fieldOf? n c = some field ∧ l.shapeOf n field ≠ .scalar

/-- The child is lowered for a field of nodes. -/
def isHeld (l : Lowering) (n c : SyntaxNode) : Bool :=
  (l.fieldOf? n c).any fun field => l.shapeOf n field ≠ .scalar

/-- The child is lowered for a field of tokens. -/
def isLost (l : Lowering) (n c : SyntaxNode) : Bool :=
  (l.fieldOf? n c).any fun field => l.shapeOf n field = .scalar

/-- The children of a node that are lowered for a field of tokens, which leaves them out. -/
def lost (l : Lowering) (n : SyntaxNode) : List SyntaxNode := n.children.filter (l.isLost n)

mutual

/-- The nodes of a subtree that its raw tree has, in document order, with their levels. -/
def survivors (l : Lowering) (depth : Nat) : SyntaxNode → List (Nat × SyntaxNode)
  | ⟨label, children⟩ =>
    (depth, ⟨label, children⟩) :: l.survivorsAmong (depth + 1) ⟨label, children⟩ children

/-- The survivors among some children of a node and below them. -/
def survivorsAmong (l : Lowering) (depth : Nat) (parent : SyntaxNode) :
    List SyntaxNode → List (Nat × SyntaxNode)
  | [] => []
  | c :: rest =>
    if l.isHeld parent c then l.survivors depth c ++ l.survivorsAmong depth parent rest
    else l.survivorsAmong depth parent rest

end

/-- What is lowered for nothing below some nodes: the subtrees of the children that they lose. -/
def missing (l : Lowering) (nodes : List (Nat × SyntaxNode)) : List (Nat × SyntaxNode) :=
  nodes.flatMap fun x => (l.lost x.2).flatMap (l.keptLevels (x.1 + 1))

variable {l : Lowering}

/-- A kept child is held or lost. -/
theorem keepsChild_eq (n c : SyntaxNode) :
    keepsChild l.options (l.schema.node? n.kind) c.label = (l.isHeld n c || l.isLost n c) := by
  have hkept := keepsChild_eq_true_iff l.options (l.schema.node? n.kind) c.label
  rw [isHeld, isLost, fieldOf?]
  cases hp : placement l.options (l.schema.node? n.kind) c.label with
  | ignored =>
    rw [hp] at hkept
    exact Bool.eq_false_iff.2 fun h => nomatch (hkept.1 h).choose_spec
  | token field =>
    rw [hp] at hkept
    exact Bool.eq_false_iff.2 fun h => nomatch (hkept.1 h).choose_spec
  | kept field shape =>
    rw [hkept.2 ⟨field, shape, hp⟩]
    cases h : l.shapeOf n field <;> simp [Placement.keptField?, h]

theorem isHeld_eq_false_of_isLost {n c : SyntaxNode} (h : l.isLost n c = true) :
    l.isHeld n c = false := by
  rw [isLost, Option.any_eq_true] at h
  obtain ⟨field, hfield, hshape⟩ := h
  rw [isHeld, hfield]
  simpa using hshape

theorem keptLevels_eq (depth : Nat) (n : SyntaxNode) :
    l.keptLevels depth n =
      (depth, n) :: l.keptLevelsBelow (depth + 1) (l.schema.node? n.kind) n.children := by
  obtain ⟨label, children⟩ := n
  rw [keptLevels]
  rfl

theorem keptLevelsBelow_eq (depth : Nat) (schema : Option NodeSchema)
    (children : List SyntaxNode) :
    l.keptLevelsBelow depth schema children =
      (children.filter fun c => keepsChild l.options schema c.label).flatMap
        (l.keptLevels depth) := by
  induction children with
  | nil => rfl
  | cons c rest ih =>
    rw [keptLevelsBelow, List.filter_cons]
    by_cases hkept : keepsChild l.options schema c.label = true
    · rw [if_pos hkept, if_pos hkept, List.flatMap_cons, ih]
    · rw [if_neg hkept, if_neg hkept, ih]

theorem survivors_eq (depth : Nat) (n : SyntaxNode) :
    l.survivors depth n = (depth, n) :: l.survivorsAmong (depth + 1) n n.children := by
  obtain ⟨label, children⟩ := n
  rw [survivors]

theorem missing_append (nodes others : List (Nat × SyntaxNode)) :
    l.missing (nodes ++ others) = l.missing nodes ++ l.missing others := List.flatMap_append

/-! ## Survivors and missing nodes are all there is -/

mutual

/-- **The lowered nodes are the survivors and what is missing below them.** -/
theorem keptLevels_perm (depth : Nat) :
    ∀ n : SyntaxNode, (l.keptLevels depth n).Perm
      (l.survivors depth n ++ l.missing (l.survivors depth n))
  | ⟨label, children⟩ => by
    rw [keptLevels, survivors, missing, List.flatMap_cons, List.cons_append]
    exact (keptLevelsBelow_perm (depth + 1) ⟨label, children⟩ children).cons _

theorem keptLevelsBelow_perm (depth : Nat) (n : SyntaxNode) :
    ∀ children : List SyntaxNode,
      (l.keptLevelsBelow depth (l.schema.node? n.kind) children).Perm
        (l.survivorsAmong depth n children ++
          ((children.filter (l.isLost n)).flatMap (l.keptLevels depth) ++
            l.missing (l.survivorsAmong depth n children)))
  | [] => List.Perm.nil
  | c :: rest => by
    have hrest := keptLevelsBelow_perm depth n rest
    rw [keptLevelsBelow, survivorsAmong, keepsChild_eq]
    cases hlost : l.isLost n c with
    | true =>
      -- the whole subtree goes to the missing ones
      rw [isHeld_eq_false_of_isLost hlost, Bool.false_or, if_pos rfl, if_neg Bool.false_ne_true,
        List.filter_cons_of_pos hlost, List.flatMap_cons, List.append_assoc]
      exact (hrest.append_left _).trans (List.perm_append_comm_assoc _ _ _)
    | false =>
      rw [Bool.or_false, List.filter_cons_of_neg (by simp [hlost])]
      cases hheld : l.isHeld n c with
      | true =>
        have hc := keptLevels_perm depth c
        rw [if_pos rfl, if_pos rfl, missing_append]
        refine (hc.append hrest).trans ?_
        rw [List.append_assoc, List.append_assoc]
        refine List.Perm.append_left _ ((List.perm_append_comm_assoc _ _ _).trans ?_)
        exact List.Perm.append_left _ (List.perm_append_comm_assoc _ _ _)
      | false =>
        rw [if_neg Bool.false_ne_true, if_neg Bool.false_ne_true]
        exact hrest

end

/-- Nothing is missing exactly if no survivor loses a child. -/
theorem missing_eq_nil_iff {nodes : List (Nat × SyntaxNode)} :
    l.missing nodes = [] ↔ ∀ x ∈ nodes, l.lost x.2 = [] := by
  rw [missing, List.flatMap_eq_nil_iff]
  refine forall₂_congr fun x _ => ?_
  rw [List.flatMap_eq_nil_iff]
  constructor
  · intro h
    refine List.eq_nil_iff_forall_not_mem.2 fun c hc => ?_
    have := h c hc
    rw [keptLevels_eq] at this
    cases this
  · intro h c hc
    rw [h] at hc
    exact absurd hc List.not_mem_nil

/-- The survivors are all that is lowered exactly if no lowered node loses a child. -/
theorem length_survivors_eq_iff {depth : Nat} {n : SyntaxNode} :
    (l.survivors depth n).length = (l.keptLevels depth n).length ↔
      ∀ x ∈ l.keptLevels depth n, l.lost x.2 = [] := by
  have hperm := l.keptLevels_perm depth n
  have hlength := hperm.length_eq
  rw [List.length_append] at hlength
  constructor
  · intro h
    have hnone : l.missing (l.survivors depth n) = [] := List.length_eq_zero_iff.1 (by omega)
    rw [hnone, List.append_nil] at hperm
    exact fun x hx => missing_eq_nil_iff.1 hnone x (hperm.mem_iff.1 hx)
  · intro h
    have hnone : l.missing (l.survivors depth n) = [] := missing_eq_nil_iff.2 fun x hx =>
      h x (hperm.mem_iff.2 (List.mem_append_left _ hx))
    rw [hnone, List.length_nil] at hlength
    exact hlength.symm

/-! ## Where nothing is lost -/

section

variable {schema : Option NodeSchema} {children : List SyntaxNode}

theorem outlines_eq_filterMap : l.outlines schema children =
    children.filterMap fun c => (placement l.options schema c.label).outline? := by
  induction children with
  | nil => rfl
  | cons c rest ih =>
    rw [outlines, ih, List.filterMap_cons]
    cases placement l.options schema c.label <;> rfl

/-- What settles a field comes from a child that is placed there. -/
theorem of_mem_outlines {p : Placed} (h : p ∈ l.outlines schema children) :
    ∃ c ∈ children,
      (placement l.options schema c.label = .token p.field ∧ p.shape = .scalar) ∨
      placement l.options schema c.label = .kept p.field p.shape := by
  rw [outlines_eq_filterMap] at h
  obtain ⟨c, hc, hp⟩ := List.mem_filterMap.1 h
  refine ⟨c, hc, ?_⟩
  cases hplace : placement l.options schema c.label with
  | ignored =>
    rw [hplace] at hp
    cases hp
  | token field =>
    rw [hplace] at hp
    cases hp
    exact .inl ⟨rfl, rfl⟩
  | kept field shape =>
    rw [hplace] at hp
    cases hp
    exact .inr rfl

theorem mem_outlines_of_kept {c : SyntaxNode} {field : String} {shape : FieldShape}
    (hc : c ∈ children) (hp : placement l.options schema c.label = .kept field shape) :
    ⟨field, shape, .node "" []⟩ ∈ l.outlines schema children := by
  rw [outlines_eq_filterMap]
  exact List.mem_filterMap.2 ⟨c, hc, by rw [hp]; rfl⟩

end

/-- A node whose children agree with its schema loses none of them. -/
theorem lost_eq_nil_of_wellFiled {n : SyntaxNode} (fits : l.WellFiled n) : l.lost n = [] := by
  rw [lost, List.filter_eq_nil_iff]
  intro c hc hlost
  rw [isLost, Option.any_eq_true] at hlost
  obtain ⟨field, hfield, hscalar⟩ := hlost
  have hscalar := of_decide_eq_true hscalar
  obtain ⟨shape, hp⟩ := Placement.keptField?_eq_some_iff.1 hfield
  obtain ⟨-, -, hnodes, -⟩ := (fits c hc).of_kept hp
  have hmem := mem_outlines_of_kept hc hp
  -- the first child placed there is a token or a kept one, and both disagree with the child
  rcases settledShape_cases (l.outlines (l.schema.node? n.kind) n.children) field with
    ⟨hnone, -⟩ | ⟨p, hpmem, rfl, hshape⟩
  · exact List.not_mem_nil (hnone ▸ List.mem_filter.2 ⟨hmem, decide_eq_true rfl⟩)
  · obtain ⟨d, hd, ⟨htoken, -⟩ | hkept⟩ := of_mem_outlines hpmem
    · exact hnodes ((fits d hd).of_token htoken).2.1
    · exact ((fits d hd).of_kept hkept).2.1 (hshape.symm.trans hscalar)

/-! ## What the raw tree has -/

section

variable {n : SyntaxNode} {schema : Option NodeSchema} {R : SyntaxNode → RawNode → Prop}
  {children : List SyntaxNode} {placed : List Placed} {raw : RawNode}

theorem Places.shapeOf_eq (h : Places l (l.schema.node? n.kind) R n.children placed)
    (field : String) : l.shapeOf n field = settledShape placed field := by
  rw [shapeOf, h.outlines_eq, settledShape_map]

/-- The nodes placed under a name are those of the children placed there as nodes. -/
theorem Places.forall₂_asNode? (h : Places l schema R children placed) (field : String) :
    List.Forall₂ R
      (children.filter fun c => (placement l.options schema c.label).keptField? = some field)
      (((placed.filter (·.field = field)).map (·.value)).filterMap RawValue.asNode?) := by
  induction h with
  | nil => exact .nil
  | ignored hp _ ih =>
    rw [List.filter_cons_of_neg (by simp [hp, Placement.keptField?])]
    exact ih
  | @token c rest placed name text hp _ _ ih =>
    -- a text is no node, whatever its name
    rw [List.filter_cons_of_neg (by simp [hp, Placement.keptField?])]
    by_cases hname : name = field
    · rw [List.filter_cons_of_pos (by simpa using hname)]
      exact ih
    · rw [List.filter_cons_of_neg (by simpa using hname)]
      exact ih
  | @kept c rest placed name shape raw hp hR _ ih =>
    by_cases hname : name = field
    · rw [List.filter_cons_of_pos (by simp [hp, Placement.keptField?, hname]),
        List.filter_cons_of_pos (by simpa using hname)]
      exact .cons hR ih
    · rw [List.filter_cons_of_neg (by simp [hp, Placement.keptField?, hname]),
        List.filter_cons_of_neg (by simpa using hname)]
      exact ih

theorem Places.heldNodes_eq (h : Places l schema R children placed) :
    ∀ p ∈ placed, p.value.heldNodes = p.value.asNode?.toList := by
  induction h with
  | nil => exact fun p hp => absurd hp List.not_mem_nil
  | ignored _ _ ih => exact ih
  | token _ _ _ ih => exact List.forall_mem_cons.2 ⟨rfl, ih⟩
  | kept _ _ _ ih => exact List.forall_mem_cons.2 ⟨rfl, ih⟩

/-- A node that was put together holds, under every name, its held children there. -/
theorem forall₂_heldIn (hplaced : Places l (l.schema.node? n.kind) R n.children placed)
    (hraw : l.assemble n placed = .ok raw) (field : String) :
    List.Forall₂ R (l.heldIn n field) (raw.nodesIn field) := by
  rw [nodesIn_of_assemble hraw, ← hplaced.shapeOf_eq, heldIn]
  by_cases hscalar : l.shapeOf n field = .scalar
  · rw [hscalar, heldNodes_fieldValue_scalar]
    simp
  · have items : ∀ v ∈ (placed.filter (·.field = field)).map (·.value),
        v.heldNodes = v.asNode?.toList := by
      intro v hv
      obtain ⟨p, hp, rfl⟩ := List.mem_map.1 hv
      exact hplaced.heldNodes_eq p (List.mem_filter.1 hp).1
    rw [heldNodes_fieldValue hscalar items]
    simpa [fieldOf?, hscalar] using hplaced.forall₂_asNode? field

/-- A field has the nodes of what was placed in it, unless it is one of tokens. -/
theorem nodeCount_fieldValue (shape : FieldShape) (values : List RawValue) :
    (fieldValue shape values).nodeCount =
      if shape = .scalar then 0 else (values.map RawValue.nodeCount).sum := by
  match shape, values with
  | .scalar, _ => rfl
  | .child, [v] => exact (Nat.add_zero _).symm
  | .child, [] => rfl
  | .child, v :: w :: rest => exact RawValue.nodeCountItems_eq _
  | .childList, values => exact RawValue.nodeCountItems_eq _

/-- What was placed, fields of tokens left out, has the survivors among the children. -/
theorem Places.sum_survivors {depth : Nat}
    (h : Places l (l.schema.node? n.kind)
      (fun c r => ∀ depth, r.nodeCount = (l.survivors depth c).length) children placed) :
    (placed.map fun p => if l.shapeOf n p.field = .scalar then 0 else p.value.nodeCount).sum =
      (l.survivorsAmong depth n children).length := by
  induction h with
  | nil => rfl
  | ignored hp _ ih =>
    rw [survivorsAmong, isHeld, fieldOf?, hp]
    exact ih
  | token hp _ _ ih =>
    rw [survivorsAmong, isHeld, fieldOf?, hp, List.map_cons, List.sum_cons, RawValue.nodeCount,
      ite_self, Nat.zero_add]
    exact ih
  | @kept c rest placed name shape raw hp hR _ ih =>
    rw [survivorsAmong, isHeld, fieldOf?, hp, List.map_cons, List.sum_cons, ih]
    by_cases hscalar : l.shapeOf n name = .scalar
    · simp [Placement.keptField?, hscalar]
    · have hcount : raw.toValue.nodeCount = (l.survivors depth c).length := hR depth
      simp [Placement.keptField?, hscalar, hcount]

theorem nodeCount_of_assemble
    (hplaced : Places l (l.schema.node? n.kind)
      (fun c r => ∀ depth, r.nodeCount = (l.survivors depth c).length) n.children placed)
    (hraw : l.assemble n placed = .ok raw) (depth : Nat) :
    raw.nodeCount = (l.survivors depth n).length := by
  have hplacedFields : ((placedFields placed).map fun f => f.2.nodeCount).sum =
      (l.survivorsAmong (depth + 1) n n.children).length := by
    rw [← hplaced.sum_survivors]
    refine sum_placedFields fun name => ?_
    have hsame : ((placed.filter (·.field = name)).map fun p =>
        if l.shapeOf n p.field = .scalar then 0 else p.value.nodeCount) =
        (placed.filter (·.field = name)).map fun p =>
          if l.shapeOf n name = .scalar then 0 else p.value.nodeCount :=
      List.map_congr_left fun p hp => by rw [of_decide_eq_true (List.mem_filter.1 hp).2]
    rw [nodeCount_fieldValue, hsame, ← hplaced.shapeOf_eq]
    by_cases hscalar : l.shapeOf n name = .scalar <;> simp [hscalar, Function.comp_def]
  rw [RawNode.nodeCount, RawValue.countsNodes_nodeCount.assemble hraw, hplacedFields, survivors_eq,
    List.length_cons, Nat.add_comm]

/-- By induction over the walk: a raw tree has the survivors. -/
theorem nodeCount_of_lowerAt {depth : Nat} (h : l.lowerAt depth n = .ok raw) :
    raw.nodeCount = (l.survivors depth n).length :=
  lowerAt_induct (P := fun n r => ∀ depth, r.nodeCount = (l.survivors depth n).length)
    (fun _ _ _ => nodeCount_of_assemble) depth n raw h depth

/-! ## Every lowered node -/

theorem Places.of_kept (h : Places l schema R children placed) {c : SyntaxNode}
    (hc : c ∈ children) (hkept : keepsChild l.options schema c.label = true) : ∃ r, R c r := by
  obtain ⟨field, shape, hp⟩ := (keepsChild_eq_true_iff l.options schema c.label).1 hkept
  induction h with
  | nil => exact absurd hc List.not_mem_nil
  | ignored hd _ ih =>
    rcases List.mem_cons.1 hc with rfl | hc
    · exact absurd (hd.symm.trans hp) nofun
    · exact ih hc
  | token hd _ _ ih =>
    rcases List.mem_cons.1 hc with rfl | hc
    · exact absurd (hd.symm.trans hp) nofun
    · exact ih hc
  | kept _ hR _ ih =>
    rcases List.mem_cons.1 hc with rfl | hc
    · exact ⟨_, hR⟩
    · exact ih hc

/-- All kept nodes below a lowered node were lowered, each at its level. -/
theorem exists_lowerAt_of_mem {depth : Nat} (h : l.lowerAt depth n = .ok raw) :
    ∀ x ∈ l.keptLevels depth n, ∃ r, l.lowerAt x.1 x.2 = .ok r := by
  induction n using SyntaxNode.induct generalizing depth raw with
  | step n ih =>
    intro x hx
    rw [keptLevels_eq, keptLevelsBelow_eq] at hx
    rcases List.mem_cons.1 hx with rfl | hx
    · exact ⟨raw, h⟩
    · obtain ⟨c, hc, hx⟩ := List.mem_flatMap.1 hx
      obtain ⟨hc, hkept⟩ := List.mem_filter.1 hc
      obtain ⟨-, placed, hplaced, -⟩ := lowerAt_eq_ok_iff.1 h
      obtain ⟨r, hr⟩ := hplaced.of_kept hc hkept
      exact ih c hc hr x hx

/-- A lowered node has its kind, and under every name what its held children there were lowered
to, in document order. -/
theorem nodesIn_of_lowerAt {depth : Nat} (h : l.lowerAt depth n = .ok raw) :
    raw.kind = n.kind ∧ ∀ field, List.Forall₂ (fun c r => l.lowerAt (depth + 1) c = .ok r)
      (l.heldIn n field) (raw.nodesIn field) := by
  obtain ⟨-, placed, hplaced, hraw⟩ := lowerAt_eq_ok_iff.1 h
  exact ⟨(fields_of_assemble hraw).1, forall₂_heldIn hplaced hraw⟩

end

end Lowering

/-- **Which lowered nodes are found in the raw tree.** Every kept node of the tree was lowered, and
holds under every name what its held children there were lowered to, in document order. A raw tree
has the survivors; the other lowered nodes are the subtrees of the children that the survivors
lose. So it has all lowered nodes exactly if none of them loses a child, and a node whose children
agree with its schema loses none. -/
theorem lower_survivors (l : Lowering) (root : SyntaxNode) (raw : RawNode)
    (h : l.lower root = .ok raw) :
    let lowered := l.keptLevels 0 root
    let survivors := l.survivors 0 root
    (∀ x ∈ lowered, ∃ r, l.lowerAt x.1 x.2 = .ok r ∧ r.kind = x.2.kind ∧
      ∀ field, List.Forall₂ (fun c r => l.lowerAt (x.1 + 1) c = .ok r)
        (l.heldIn x.2 field) (r.nodesIn field)) ∧
    lowered.Perm (survivors ++ l.missing survivors) ∧
    raw.nodeCount = survivors.length ∧
    (raw.nodeCount = lowered.length ↔ ∀ x ∈ lowered, l.lost x.2 = []) ∧
    ∀ x ∈ lowered, l.WellFiled x.2 → l.lost x.2 = [] := by
  intro lowered survivors
  have hcount : raw.nodeCount = survivors.length := Lowering.nodeCount_of_lowerAt h
  refine ⟨fun x hx => ?_, l.keptLevels_perm 0 root, hcount, ?_,
    fun _ _ => Lowering.lost_eq_nil_of_wellFiled⟩
  · obtain ⟨r, hr⟩ := Lowering.exists_lowerAt_of_mem h x hx
    exact ⟨r, hr, Lowering.nodesIn_of_lowerAt hr⟩
  · rw [hcount]
    exact Lowering.length_survivors_eq_iff

def nameTree : SyntaxNode :=
  let node (kind : String) (stop : Nat) (children : List SyntaxNode) : SyntaxNode :=
    ⟨⟨kind, true, false, false, false, false, none, 0, stop, ⟨0, 0⟩, ⟨0, stop⟩⟩, children⟩
  node "module" 2 [node "expression_statement" 1 [node "identifier" 1 []]]

/-- A lowering by a grammar in which all that stands in a module without a field is a token. -/
def semicolonLowering : Lowering where
  schema := ⟨SortedMap.ofList [("module", ⟨SortedMap.ofList [], some .scalar⟩)]⟩
  source := "x\n"
  options := {}

/-- The module has lost its statement, and has its text instead. -/
def textModule : RawNode where
  kind := "module"
  fields := [("children", .scalar (.str "")), ("text", .scalar (.str "x\n"))]

theorem lower_survivors_semicolon :
    semicolonLowering.lower nameTree = .ok textModule ∧
    textModule.nodeCount = (semicolonLowering.survivors 0 nameTree).length := by
  have lowered : semicolonLowering.lower nameTree = .ok textModule := by rfl
  exact ⟨lowered, (lower_survivors semicolonLowering nameTree textModule lowered).2.2.1⟩

/-- Three nodes are lowered, and the raw tree has one. -/
theorem nodeCount_lt_lowered :
    semicolonLowering.lower nameTree = .ok textModule ∧
    (semicolonLowering.keptLevels 0 nameTree).map (·.2.kind) =
      ["module", "expression_statement", "identifier"] ∧
    textModule.nodeCount = 1 ∧
    ¬ ∀ (l : Lowering) (root : SyntaxNode) (raw : RawNode), l.lower root = .ok raw →
      raw.nodeCount = (l.keptLevels 0 root).length := by
  have lowered : semicolonLowering.lower nameTree = .ok textModule := by rfl
  have hkinds : (semicolonLowering.keptLevels 0 nameTree).map (·.2.kind) =
      ["module", "expression_statement", "identifier"] := by rfl
  have hcount : textModule.nodeCount = 1 := by rfl
  refine ⟨lowered, hkinds, hcount, fun all => ?_⟩
  have hall := all semicolonLowering nameTree textModule lowered
  rw [hcount, ← List.length_map (·.2.kind), hkinds] at hall
  exact absurd hall (by decide)

end SyntaxGraph
