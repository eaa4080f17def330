import SyntaxGraph.Proofs.Checks
import SyntaxGraph.Proofs.Deletion
import SyntaxGraph.Proofs.Placement

/-!
# Options only add to a tree

Two lowerings of one tree under different options are compared through deletion. Take names that
neither the grammar nor the tree uses (`Lowering.Unused`). What a lowering gives, without the
fields of these names, is what the same lowering gives under options that add none of them
(`lowerAt_without`): a child is placed as before or no longer placed, the names of the fields
occur in the same order, and what the schema adds is the same.

With all names that options add, this compares a lowering with one that has no options. With the
names of attributes only, it compares two lowerings that agree on comments: both give the same
tree up to these attributes, and so the same numbers.

Main statement: `options_only_add`.
-/

namespace SyntaxGraph

/-- The attributes that options add. -/
def attributeNames : List String := textField :: positionNames

/-- The fields that options add. -/
def addedNames : List String := commentsField :: attributeNames

/-- The placement of a child when nothing is kept under these names. -/
def Placement.without (names : List String) : Placement → Placement
  | .kept field shape => if field ∈ names then .ignored else .kept field shape
  | p => p

namespace Lowering

/-- The same lowering with other options. -/
def withOptions (l : Lowering) (options : TreeOptions) : Lowering := { l with options }

/-- The same lowering with options that add no attributes, and comments only under a name that is
not among these. -/
def without (names : List String) (l : Lowering) : Lowering :=
  l.withOptions ⟨false, false, l.options.includeComments && commentsField ∉ names⟩

/-- Neither the grammar nor the tree has fields of these names. -/
structure Unused (l : Lowering) (names : List String) (root : SyntaxNode) : Prop where
  schema : ∀ e ∈ l.schema.nodes.entries, ∀ name ∈ names, e.2.fields.get? name = none
  tree : ∀ n ∈ root.preorder, ∀ c ∈ n.children, ∀ field ∈ c.label.field, field ∉ names

variable {l : Lowering} {names : List String} {schema : Option NodeSchema} {n root : SyntaxNode}
  {placed : List Placed}

theorem Unused.of_mem_preorder {m : SyntaxNode} (unused : l.Unused names n)
    (hm : m ∈ n.preorder) : l.Unused names m where
  schema := unused.schema
  tree := fun k hk => unused.tree k (SyntaxNode.mem_preorder_trans hm hk)

theorem Unused.mono {others : List String} (unused : l.Unused names n)
    (h : ∀ name ∈ others, name ∈ names) : l.Unused others n where
  schema := fun e he name hname => unused.schema e he name (h name hname)
  tree := fun m hm c hc field hfield hname => unused.tree m hm c hc field hfield (h field hname)

theorem Unused.withOptions (unused : l.Unused names n) (options : TreeOptions) :
    (l.withOptions options).Unused names n where
  schema := unused.schema
  tree := unused.tree

theorem Unused.get?_eq_none {kind : String} {s : NodeSchema} (unused : l.Unused names n)
    (hs : l.schema.node? kind = some s) {name : String} (hname : name ∈ names) :
    s.fields.get? name = none :=
  unused.schema (kind, s) (SortedMap.mem_entries_iff.2 hs) name hname

/-! ## Placing under fewer names -/

theorem placement_without (l : Lowering) (schema : Option NodeSchema) {child : NodeLabel}
    (unnamed : unnamedField ∉ names) (hfield : ∀ field ∈ child.field, field ∉ names) :
    placement (l.without names).options schema child =
      (placement l.options schema child).without names := by
  cases hextra : child.isExtra with
  | true =>
    rw [placement_of_extra hextra, placement_of_extra hextra]
    by_cases hcomments : commentsField ∈ names
    · have hoff : (l.without names).options.includeComments = false := by
        simp [without, withOptions, hcomments]
      rw [hoff, Bool.false_and, if_neg Bool.false_ne_true]
      split
      · exact (if_pos hcomments).symm
      · rfl
    · have hsame : (l.without names).options.includeComments = l.options.includeComments := by
        simp [without, withOptions, hcomments]
      rw [hsame]
      split
      · exact (if_neg hcomments).symm
      · rfl
  | false =>
    cases hname : child.field with
    | none =>
      rw [placement_of_no_field hextra hname, placement_of_no_field hextra hname]
      split
      · exact (if_neg unnamed).symm
      · rfl
    | some field =>
      rw [placement_of_field hextra hname, placement_of_field hextra hname]
      split
      · rfl
      · split
        · exact (if_neg (hfield field hname)).symm
        · rfl

end Lowering

/-- What was placed under other names, without the fields of these names. -/
def placedWithout (names : List String) (placed : List Placed) : List Placed :=
  (placed.filter (·.field ∉ names)).map (Placed.map (RawValue.without names))

section

variable {names : List String} {placed : List Placed}

theorem placedWithout_cons_of_mem {p : Placed} (h : p.field ∈ names) :
    placedWithout names (p :: placed) = placedWithout names placed := by
  rw [placedWithout, List.filter_cons_of_neg (by simpa using h)]
  rfl

theorem placedWithout_cons_of_not_mem {p : Placed} (h : p.field ∉ names) :
    placedWithout names (p :: placed) =
      p.map (RawValue.without names) :: placedWithout names placed := by
  rw [placedWithout, List.filter_cons_of_pos (by simpa using h)]
  rfl

/-- A field is made of what was placed in it, with or without the deleted fields. -/
theorem fieldValue_without (shape : FieldShape) (values : List RawValue) :
    fieldValue shape (values.map (RawValue.without names)) =
      (fieldValue shape values).without names := by
  have htext : RawValue.scalarText? ∘ RawValue.without names = RawValue.scalarText? := by
    funext v
    cases v <;> rfl
  match shape, values with
  | .scalar, values => rw [fieldValue, fieldValue, List.filterMap_map, RawValue.without, htext]
  | .child, [] => rfl
  | .child, [_] => rfl
  | .child, _ :: _ :: _ | .childList, _ =>
    simp only [fieldValue, RawValue.without, RawValue.withoutItems_eq, List.map_cons]

theorem filter_placed_not_mem {name : String} (h : name ∉ names) :
    (placed.filter (·.field ∉ names)).filter (·.field = name) =
      placed.filter (·.field = name) := by
  rw [List.filter_filter]
  refine List.filter_congr fun p _ => ?_
  by_cases hname : p.field = name
  · subst hname
    simpa using h
  · simp [hname]

theorem placedFields_without :
    placedFields (placedWithout names placed) =
      RawValue.withoutFields names (placedFields placed) := by
  have hnames : (placed.filter (·.field ∉ names)).map (·.field) =
      (placed.map (·.field)).filter (· ∉ names) := by
    rw [List.filter_map]
    rfl
  rw [placedWithout, placedFields_map, hnames, eraseDups_filter, RawValue.withoutFields_eq,
    placedFields, List.filter_map, List.map_map]
  refine List.map_congr_left fun name hname => ?_
  have hother : name ∉ names := by simpa using (List.mem_filter.1 hname).2
  rw [fieldValue_without, settledShape, filter_placed_not_mem hother]
  rfl

theorem emptyFields_without {schema : Option NodeSchema}
    (unused : ∀ s, schema = some s → ∀ name ∈ names, s.fields.get? name = none) :
    emptyFields schema (placedWithout names placed) =
      RawValue.withoutFields names (emptyFields schema placed) := by
  cases schema with
  | none => rfl
  | some s =>
    have hnames : ∀ f ∈ s.fields.entries, f.1 ∉ names := by
      intro f hf hname
      have hsome := SortedMap.mem_entries_iff.1 hf
      rw [unused s rfl f.1 hname] at hsome
      cases hsome
    have hfields : ∀ f ∈ emptyFields (some s) placed, f.1 ∉ names := by
      intro f hf
      obtain ⟨e, he, rfl⟩ := List.mem_map.1 hf
      exact hnames e (List.mem_filter.1 he).1
    rw [RawValue.withoutFields_eq_self hfields bare_of_mem_emptyFields, placedWithout,
      emptyFields_map]
    simp only [emptyFields, List.any_filter]
    congr 1
    refine List.filter_congr fun f hf => ?_
    congr 1
    refine List.any_congr rfl fun p => ?_
    by_cases hname : p.field = f.1
    · simp [hname, hnames f hf]
    · simp [hname]

end

namespace Lowering

variable {l : Lowering} {names : List String} {n root : SyntaxNode} {placed : List Placed}
  {raw : RawNode}

theorem Places.without {schema : Option NodeSchema} {R S : SyntaxNode → RawNode → Prop}
    {children : List SyntaxNode} (unnamed : unnamedField ∉ names)
    (hfield : ∀ c ∈ children, ∀ field ∈ c.label.field, field ∉ names)
    (himp : ∀ c ∈ children, ∀ r, R c r → S c (r.without names))
    (h : Places l schema R children placed) :
    Places (l.without names) schema S children (placedWithout names placed) := by
  induction h with
  | nil => exact .nil
  | @ignored c rest placed hp _ ih =>
    rw [List.forall_mem_cons] at hfield himp
    have hplace := placement_without l schema unnamed hfield.1
    rw [hp] at hplace
    exact .ignored hplace (ih hfield.2 himp.2)
  | @token c rest placed field text hp ht _ ih =>
    rw [List.forall_mem_cons] at hfield himp
    have hplace := placement_without l schema unnamed hfield.1
    rw [hp] at hplace
    have hother : field ∉ names := hfield.1 field (of_placement_token hp).2.1
    rw [placedWithout_cons_of_not_mem hother]
    exact .token hplace ht (ih hfield.2 himp.2)
  | @kept c rest placed field shape r hp hR _ ih =>
    rw [List.forall_mem_cons] at hfield himp
    have hplace := placement_without l schema unnamed hfield.1
    rw [hp, Placement.without] at hplace
    by_cases hname : field ∈ names
    · rw [if_pos hname] at hplace
      rw [placedWithout_cons_of_mem hname]
      exact .ignored hplace (ih hfield.2 himp.2)
    · rw [if_neg hname] at hplace
      rw [placedWithout_cons_of_not_mem hname]
      exact .kept hplace (himp.1 r hR) (ih hfield.2 himp.2)

/-- What the options add to a node is deleted, and the rest of its fields is put together anew. -/
theorem assemble_without (covers : ∀ name ∈ attributeNames, name ∈ names)
    (unused : l.Unused names n) (hraw : l.assemble n placed = .ok raw) :
    (l.without names).assemble n (placedWithout names placed) = .ok (raw.without names) := by
  obtain ⟨text, htext, rfl⟩ := assemble_eq_ok_iff.1 hraw
  refine assemble_eq_ok_iff.2 ⟨[], rfl, ?_⟩
  have hown : (l.without names).ownFields n.kind (placedWithout names placed) =
      RawValue.withoutFields names (l.ownFields n.kind placed) := by
    rw [ownFields, ownFields, RawValue.withoutFields_append, placedFields_without,
      ← emptyFields_without fun s hs name => unused.get?_eq_none hs]
    rfl
  have htext : RawValue.withoutFields names text = [] := by
    rcases leafText_cases htext with rfl | ⟨-, t, rfl⟩
    · rfl
    · apply RawValue.withoutFields_eq_nil
      intro f hf
      rw [List.mem_singleton.1 hf]
      exact covers textField List.mem_cons_self
  have hpositions : RawValue.withoutFields names (l.positionsOf n) = [] := by
    unfold positionsOf
    split
    · apply RawValue.withoutFields_eq_nil
      intro f hf
      have hname := List.mem_map_of_mem (f := Prod.fst) hf
      rw [map_fst_positionFields] at hname
      exact covers f.1 (List.mem_cons_of_mem _ hname)
    · rfl
  rw [RawNode.without, RawValue.withoutFields_append, RawValue.withoutFields_append, htext,
    hpositions, hown]
  rfl

/-- **Lowering without options is deleting what they add**, by induction over the tree: a child
that is no longer kept was kept under a deleted name. -/
theorem lowerAt_without {depth : Nat} (unnamed : unnamedField ∉ names)
    (covers : ∀ name ∈ attributeNames, name ∈ names) (unused : l.Unused names n)
    (h : l.lowerAt depth n = .ok raw) :
    (l.without names).lowerAt depth n = .ok (raw.without names) := by
  induction n using SyntaxNode.induct generalizing depth raw with
  | step n ih =>
    obtain ⟨hdepth, placed, hplaced, hraw⟩ := lowerAt_eq_ok_iff.1 h
    refine lowerAt_eq_ok_iff.2 ⟨hdepth, placedWithout names placed, ?_,
      assemble_without covers unused hraw⟩
    refine hplaced.without unnamed (unused.tree n n.mem_preorder_self) ?_
    intro c hc r hr
    have hbelow : c ∈ n.preorder := SyntaxNode.mem_preorder_of_child hc c.mem_preorder_self
    exact ih c hc (unused.of_mem_preorder hbelow) hr

/-! ## Two lowerings that agree on comments -/

/-- Nothing is placed under a name that is not used, except comments. -/
theorem Places.field_not_mem {R : SyntaxNode → RawNode → Prop} {p : Placed}
    (unnamed : unnamedField ∉ names) (comments : commentsField ∉ names)
    (unused : l.Unused names n) (h : Places l (l.schema.node? n.kind) R n.children placed)
    (hp : p ∈ placed) : p.field ∉ names := by
  have hfield := unused.tree n n.mem_preorder_self
  obtain ⟨c, hc, ⟨hplace, -⟩ | ⟨hplace, -⟩⟩ := h.exists_child hp
  · exact hfield c hc _ (of_placement_token hplace).2.1
  · rcases of_placement_kept hplace with ⟨-, -, hname⟩ | ⟨-, -, hname⟩ | ⟨-, hname, -⟩
    · rw [hname]
      exact comments
    · rw [hname]
      exact unnamed
    · exact hfield c hc _ hname

/-- No field of a node has a name that is not used, before the options add attributes. -/
theorem Places.name_not_mem {R : SyntaxNode → RawNode → Prop} (unnamed : unnamedField ∉ names)
    (comments : commentsField ∉ names) (unused : l.Unused names n)
    (hplaced : Places l (l.schema.node? n.kind) R n.children placed) :
    ∀ f ∈ l.ownFields n.kind placed, f.1 ∉ names := by
  intro f hf hname
  rw [ownFields, List.mem_append] at hf
  rcases hf with hf | hf
  · obtain ⟨p, hp, hfield⟩ := exists_placed_of_mem hf
    exact hplaced.field_not_mem unnamed comments unused hp (hfield ▸ hname)
  · cases hs : l.schema.node? n.kind with
    | none =>
      rw [hs] at hf
      exact absurd hf List.not_mem_nil
    | some s =>
      rw [hs] at hf
      obtain ⟨e, he, rfl⟩ := List.mem_map.1 hf
      have hsome := SortedMap.mem_entries_iff.1 (List.mem_filter.1 he).1
      rw [unused.get?_eq_none hs hname] at hsome
      cases hsome

/-- No node of a lowered tree holds children in an attribute. -/
theorem bareUnder_of_lowerAt {depth : Nat} (unused : l.Unused attributeNames n)
    (h : l.lowerAt depth n = .ok raw) : raw.BareUnder attributeNames := by
  obtain ⟨-, placed, hplaced, hraw⟩ := lowerAt_eq_ok_iff.1 h
  obtain ⟨-, added, hfields, hadded⟩ := fields_of_assemble hraw
  intro f hf hname
  rw [hfields, List.mem_append] at hf
  rcases hf with hf | hf
  · obtain ⟨p, hp, hfield⟩ := exists_placed_of_mem hf
    exact absurd (hfield ▸ hname) (hplaced.field_not_mem (by decide) (by decide) unused hp)
  · exact hadded f hf

/-- Options that agree on comments give the same tree up to attributes. -/
theorem without_eq_of_lower {options : TreeOptions} {other : RawNode}
    (comments : options.includeComments = l.options.includeComments)
    (unused : l.Unused attributeNames root) (h : l.lower root = .ok raw)
    (hother : (l.withOptions options).lower root = .ok other) :
    raw.without attributeNames = other.without attributeNames := by
  have unnamed : unnamedField ∉ attributeNames := by decide
  have hsame : (l.withOptions options).without attributeNames = l.without attributeNames := by
    simp only [without, withOptions, comments]
  have hraw := lowerAt_without unnamed (fun _ => id) unused h
  have hother := lowerAt_without unnamed (fun _ => id) (unused.withOptions options) hother
  rw [hsame, hraw] at hother
  exact Except.ok.inj hother

/-- Numbering sees no attributes. -/
theorem node_without_of_lower (unused : l.Unused attributeNames root)
    (h : l.lower root = .ok raw) (n : Numbering) :
    n.node (raw.without attributeNames) =
      ((n.node raw).1.without attributeNames, (n.node raw).2) := by
  apply Numbering.node_without
  intro r hr
  obtain ⟨m, hm, level, hlevel⟩ := exists_lowerAt_of_mem_nodes h hr
  exact bareUnder_of_lowerAt (unused.of_mem_preorder hm) hlevel

/-! ## Positions -/

section

variable (positions : Bool)

/-- The same lowering, with or without positions. -/
def withPositions (l : Lowering) (positions : Bool) : Lowering :=
  l.withOptions { l.options with includePositions := positions }

theorem outlines_withPositions (schema : Option NodeSchema) (children : List SyntaxNode) :
    (l.withPositions positions).outlines schema children = l.outlines schema children := by
  induction children with
  | nil => rfl
  | cons c rest ih =>
    rw [outlines, outlines, ih]
    rfl

theorem wantsText_withPositions (n : SyntaxNode) :
    (l.withPositions positions).wantsText n = l.wantsText n := by
  have houtline : (l.withPositions positions).outline n = l.outline n := by
    unfold outline
    rw [outlines_withPositions]
    rfl
  rw [wantsText, houtline]
  rfl

mutual

/-- Positions are no matter of failure: the walk asks for the same. -/
theorem checks_withPositions (depth : Nat) :
    ∀ n : SyntaxNode, (l.withPositions positions).checks depth n = l.checks depth n
  | ⟨label, children⟩ => by
    have hbelow := checksBelow_withPositions (depth + 1) (l.schema.node? label.kind) children
    rw [checks, checks, wantsText_withPositions, ← hbelow]
    rfl

theorem checksBelow_withPositions (depth : Nat) (schema : Option NodeSchema) :
    ∀ children : List SyntaxNode,
      (l.withPositions positions).checksBelow depth schema children =
        l.checksBelow depth schema children
  | [] => rfl
  | child :: rest => by
    have hchild := checks_withPositions depth child
    have hrest := checksBelow_withPositions depth schema rest
    rw [checksBelow, checksBelow, hchild, hrest]
    rfl

end

theorem lower_withPositions_eq_error_iff (e : ParseError) :
    (l.withPositions positions).lower root = .error e ↔ l.lower root = .error e := by
  rw [lower, lower, lowerAt_eq_error_iff, lowerAt_eq_error_iff, checks_withPositions]
  rfl

theorem exists_lower_withPositions_iff :
    (∃ raw, (l.withPositions positions).lower root = .ok raw) ↔
      ∃ raw, l.lower root = .ok raw := by
  simp only [lower]
  rw [exists_lowerAt_iff, exists_lowerAt_iff, checks_withPositions]
  rfl

end

end Lowering

/-- **Options only add to a tree**, whose grammar and nodes do not use the names of what they add.
Without options, a lowering that succeeded still does, and gives the same tree without the added
fields. Two lowerings that agree on comments give the same tree up to attributes, the same numbers
in it, the same links and the same list of nodes up to attributes. And positions decide neither
on success nor on the error. -/
theorem options_only_add (l : Lowering) (root : SyntaxNode)
    (unused : l.Unused addedNames root) :
    (∀ raw, l.lower root = .ok raw →
      (l.withOptions ⟨false, false, false⟩).lower root = .ok (raw.without addedNames)) ∧
    (∀ options : TreeOptions, options.includeComments = l.options.includeComments →
      ∀ raw other, l.lower root = .ok raw → (l.withOptions options).lower root = .ok other →
        raw.without attributeNames = other.without attributeNames ∧
        ∀ n : Numbering,
          let tree := (n.node raw).1
          let tree' := (n.node other).1
          tree.without attributeNames = tree'.without attributeNames ∧
          (n.node raw).2 = (n.node other).2 ∧
          tree.flatten.links = tree'.flatten.links ∧
          tree.flatten.nodes.map (Entry.without attributeNames) =
            tree'.flatten.nodes.map (Entry.without attributeNames)) ∧
    (∀ positions : Bool,
      ((∃ raw, (l.withPositions positions).lower root = .ok raw) ↔
        ∃ raw, l.lower root = .ok raw) ∧
      ∀ e, (l.withPositions positions).lower root = .error e ↔ l.lower root = .error e) := by
  refine ⟨fun raw h => ?_, fun options comments raw other h hother => ?_, fun positions =>
    ⟨Lowering.exists_lower_withPositions_iff positions,
      Lowering.lower_withPositions_eq_error_iff positions⟩⟩
  · have hoff : l.without addedNames = l.withOptions ⟨false, false, false⟩ := by
      have hcomments : commentsField ∈ addedNames := List.mem_cons_self
      simp [Lowering.without, hcomments]
    rw [← hoff]
    exact Lowering.lowerAt_without (by decide) (fun _ => List.mem_cons_of_mem _) unused h
  · have hunused : l.Unused attributeNames root := unused.mono fun _ => List.mem_cons_of_mem _
    have hraw := Lowering.without_eq_of_lower comments hunused h hother
    refine ⟨hraw, fun n => ?_⟩
    intro tree tree'
    have htree := Lowering.node_without_of_lower hunused h n
    have htree' := Lowering.node_without_of_lower (hunused.withOptions options) hother n
    rw [hraw, htree', Prod.mk.injEq] at htree
    obtain ⟨hsame, hnext⟩ := htree
    exact ⟨hsame.symm, hnext.symm, NumberedNode.flatten_eq_of_without_eq hsame.symm⟩

theorem options_only_add_sum :
    sumLowering.Unused addedNames sumTree ∧
    sumLowering.lower sumTree = .ok sumNode ∧
    (sumLowering.withOptions ⟨false, false, false⟩).lower sumTree =
      .ok (sumNode.without addedNames) ∧
    (sumNode.without addedNames).nodeCount = 3 ∧
    ∃ other, (sumLowering.withPositions true).lower sumTree = .ok other ∧
      sumNode.without attributeNames = other.without attributeNames := by
  have unused : sumLowering.Unused addedNames sumTree := ⟨by decide, by decide⟩
  have lowered : sumLowering.lower sumTree = .ok sumNode := by rfl
  obtain ⟨hoff, hsame, hpositions⟩ := options_only_add sumLowering sumTree unused
  obtain ⟨other, hother⟩ := (hpositions true).1.2 ⟨sumNode, lowered⟩
  have hboth := hsame { sumLowering.options with includePositions := true } rfl sumNode other
    lowered hother
  exact ⟨unused, lowered, hoff sumNode lowered, by decide, other, hother, hboth.1⟩

end SyntaxGraph
