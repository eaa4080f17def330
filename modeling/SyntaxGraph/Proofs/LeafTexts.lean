import SyntaxGraph.Proofs.HeldNodes
import SyntaxGraph.Proofs.Options
import SyntaxGraph.Proofs.Rebuilding
import SyntaxGraph.Proofs.Slices
import SyntaxGraph.Proofs.Survival

/-!
# The texts of leaves

Lowering gives a node its text if no field of it holds a node, and numbering and the nested copy
keep the nodes in the fields as they are (`children_eq_none_iff`). So as long as no field has the
name of the text, the nodes with a text are the leaves of the view. `ShowsTexts` says so of a syntax
tree and its view from the root down, and says which text it is; `showsTexts_of_lowerAt` is the
induction over the tree.

In the lists, a leaf is a node that no link starts from, if no number has been given twice.

Main statement: `texts_on_leaves`.
-/

namespace SyntaxGraph

namespace Lowering

/-! ## The text of one node -/

/-- The attributes of a node hold its slice of the source if it is a leaf and texts are wanted, and
hold no text if not. -/
structure HoldsText (l : Lowering) (n : SyntaxNode) (isLeaf : Prop) (attributes : Attributes) :
    Prop where
  leaf : l.options.includeLeafText = true → isLeaf →
    ∃ t, Text.IsSlice l.source n.label.startByte n.label.endByte t ∧
      attributes.get? textField = some (some (.str t))
  inner : ¬ (l.options.includeLeafText = true ∧ isLeaf) → attributes.get? textField = none

theorem HoldsText.isSome_iff {l : Lowering} {n : SyntaxNode} {isLeaf : Prop}
    {attributes : Attributes} (h : l.HoldsText n isLeaf attributes) :
    (attributes.get? textField).isSome = true ↔
      l.options.includeLeafText = true ∧ isLeaf := by
  by_cases hwanted : l.options.includeLeafText = true ∧ isLeaf
  · obtain ⟨t, -, hget⟩ := h.leaf hwanted.1 hwanted.2
    simp [hget, hwanted]
  · simp [h.inner hwanted, hwanted]

section

variable {l : Lowering} {n : SyntaxNode} {R : SyntaxNode → RawNode → Prop} {placed : List Placed}
  {raw : RawNode}

/-- No field of a node has the name of the text, before the options add one. -/
theorem Places.ne_textField (unused : l.Unused [textField] n)
    (hplaced : Places l (l.schema.node? n.kind) R n.children placed) :
    ∀ f ∈ l.ownFields n.kind placed, f.1 ≠ textField := by
  intro f hf heq
  exact hplaced.name_not_mem (by decide) (by decide) unused f hf (List.mem_singleton.2 heq)

/-- The fields of the name of the text are those that the options add. -/
theorem filter_textField {fields text : List (String × RawValue)}
    (own : ∀ f ∈ fields, f.1 ≠ textField) (added : ∀ f ∈ text, f.1 = textField) :
    (fields ++ text ++ l.positionsOf n).filter (·.1 = textField) = text := by
  have hfields : fields.filter (·.1 = textField) = [] :=
    List.filter_eq_nil_iff.2 fun f hf => by simpa using own f hf
  have htext : text.filter (·.1 = textField) = text :=
    List.filter_eq_self.2 fun f hf => by simpa using added f hf
  have hpositions : (l.positionsOf n).filter (·.1 = textField) = [] := by
    unfold positionsOf
    split <;> rfl
  rw [List.filter_append, List.filter_append, hfields, htext, hpositions, List.append_nil,
    List.nil_append]

/-- What the options add to a node holds no node. -/
theorem hasNodeChildren_of_assemble (hraw : l.assemble n placed = .ok raw) :
    raw.hasNodeChildren = RawNode.hasNodeChildren ⟨n.kind, l.ownFields n.kind placed⟩ := by
  obtain ⟨text, htext, rfl⟩ := assemble_eq_ok_iff.1 hraw
  rw [RawNode.hasNodeChildren_append bare_of_mem_positionsOf,
    RawNode.hasNodeChildren_append (bare_of_mem_leafText htext)]

/-- A node has its text exactly if texts are wanted and no field of it holds a node. -/
theorem text_of_assemble (unused : l.Unused [textField] n)
    (hplaced : Places l (l.schema.node? n.kind) R n.children placed)
    (hraw : l.assemble n placed = .ok raw) :
    l.HoldsText n (raw.hasNodeChildren = false) (attributesOf raw.fields) := by
  rw [hasNodeChildren_of_assemble hraw]
  obtain ⟨text, htext, rfl⟩ := assemble_eq_ok_iff.1 hraw
  have hown := hplaced.ne_textField unused
  have hfield : RawNode.field? ⟨n.kind, l.ownFields n.kind placed⟩ textField = none :=
    List.lookup_eq_none_iff.2 fun f hf => by simpa using (hown f hf).symm
  have hget : (attributesOf (l.ownFields n.kind placed ++ text ++ l.positionsOf n)).get?
      textField = (text.filterMap (·.2.attribute?)).getLast? := by
    rw [get?_attributesOf, filter_textField hown (name_of_mem_leafText htext)]
  rw [leafText, hfield, Option.isNone_none, Bool.and_true] at htext
  constructor
  · intro wanted hleaf
    rw [wanted, hleaf, Bool.not_false, Bool.and_true, if_pos rfl] at htext
    cases ht : l.text n.label with
    | error e =>
      rw [ht] at htext
      cases htext
    | ok t =>
      rw [ht] at htext
      cases htext
      exact ⟨t, Text.sliceBytes_eq_some_iff.1 (text_eq_ok_iff.1 ht), hget⟩
  · intro hinner
    rw [if_neg (by simpa using hinner)] at htext
    cases htext
    exact hget

end

/-! ## The texts of a tree -/

/-- The view shows a node, with its slice of the source as its text if it is a leaf and texts are
wanted, and without a text if not; and under every field, its children show the held children of
the node, in order. -/
inductive ShowsTexts (l : Lowering) : SyntaxNode → Hierarchy → Prop
  | intro {n : SyntaxNode} {h : Hierarchy} (name : h.entry.name = n.kind)
      (text : l.HoldsText n (h.children = none) h.entry.attributes)
      (fielded : ∀ c ∈ h.childList, c.field ≠ none)
      (children : ∀ field, List.Forall₂ (ShowsTexts l) (l.heldIn n field)
        (h.childList.filter (·.field = some field))) : ShowsTexts l n h

section

variable {l : Lowering} {n : SyntaxNode} {placed : List Placed} {raw : RawNode} {k : Numbering}
  {field : Option String} {h : Hierarchy}

/-- The views of the children in a field show the held children there. -/
theorem forall₂_views {R : SyntaxNode → RawNode → Prop} {S : SyntaxNode → Hierarchy → Prop}
    (hplaced : Places l (l.schema.node? n.kind) R n.children placed)
    (hraw : l.assemble n placed = .ok raw) (d : Depicts field (k.node raw).1 h)
    (shows : ∀ c r view, R c r →
      (∃ name, ∃ k : Numbering, Depicts (some name) (k.node r).1 view) → S c view)
    (name : String) :
    List.Forall₂ S (l.heldIn n name) (h.childList.filter (·.field = some name)) := by
  have hviews : List.Forall₂ (fun r view => ∃ name, ∃ k : Numbering,
      Depicts (some name) (k.node r).1 view) (raw.nodesIn name)
      (h.childList.filter (·.field = some name)) := by
    rw [← heldChildren_of_assemble hraw, List.forall₂_map_left_iff]
    have hfilter : List.Forall₂ Views (raw.heldChildren.filter (·.1 = name))
        (h.childList.filter (·.field = some name)) := by
      refine List.rel_filter ?_ (forall₂_childList d)
      rintro held view ⟨hfield, -⟩
      simp [hfield]
    exact hfilter.imp fun held view hview => ⟨held.1, hview.2⟩
  exact forall₂_comp shows (forall₂_heldIn hplaced hraw name) hviews

/-- One level: a node shows its texts if its kept children do. -/
theorem showsTexts_of_assemble (unused : l.Unused [textField] n)
    (hplaced : Places l (l.schema.node? n.kind)
      (fun c r => ∀ (k : Numbering) name view, Depicts (some name) (k.node r).1 view →
        l.ShowsTexts c view) n.children placed)
    (hraw : l.assemble n placed = .ok raw) (d : Depicts field (k.node raw).1 h) :
    l.ShowsTexts n h := by
  have htext := text_of_assemble unused hplaced hraw
  have hentry : h.entry = ⟨k.assigned, raw.kind, attributesOf raw.fields⟩ := by
    obtain ⟨entry, -, -, -⟩ := d
    exact entry
  rw [← children_eq_none_iff d] at htext
  refine .intro ?_ ?_ (fun c hc => ?_) ?_
  · rw [hentry]
    exact (fields_of_assemble hraw).1
  · rw [hentry]
    exact htext
  · obtain ⟨via, m, dchild⟩ := d.child hc
    simp [dchild.field_eq]
  · refine forall₂_views hplaced hraw d ?_
    rintro c r view hshows ⟨name, k, d⟩
    exact hshows k name view d

/-- **Text sits exactly on the leaves**, by induction over the tree. -/
theorem showsTexts_of_lowerAt {depth : Nat} (unused : l.Unused [textField] n)
    (hlower : l.lowerAt depth n = .ok raw) (d : Depicts field (k.node raw).1 h) :
    l.ShowsTexts n h := by
  induction n using SyntaxNode.induct generalizing depth raw k field h with
  | step n ih =>
    obtain ⟨-, placed, hplaced, hraw⟩ := lowerAt_eq_ok_iff.1 hlower
    refine showsTexts_of_assemble unused (hplaced.imp ?_) hraw d
    intro c hc _ _ _ r hr k name view dchild
    have hbelow : c ∈ n.preorder := SyntaxNode.mem_preorder_of_child hc c.mem_preorder_self
    exact ih c hc (unused.of_mem_preorder hbelow) hr dchild

/-- Every node of the view has a text exactly if it is a leaf and texts are wanted. -/
theorem ShowsTexts.of_mem_preorder {s : Site} (shows : l.ShowsTexts n s.node) :
    ∀ x ∈ s.preorder, (x.entry.attributes.get? textField).isSome = true ↔
      l.options.includeLeafText = true ∧ x.node.children = none := by
  have hall : ∀ x ∈ s.preorder, ∃ m, l.ShowsTexts m x.node := by
    refine Site.of_mem_preorder (P := fun h => ∃ m, l.ShowsTexts m h) ?_ ⟨n, shows⟩
    rintro h ⟨m, -, -, fielded, children⟩ c hc
    obtain ⟨name, hname⟩ := Option.ne_none_iff_exists'.1 (fielded c hc)
    have hmem : c ∈ h.childList.filter (·.field = some name) :=
      List.mem_filter.2 ⟨hc, decide_eq_true hname⟩
    obtain ⟨held, -, hheld⟩ := exists_of_mem_of_forall₂ (children name) hmem
    exact ⟨held, hheld⟩
  intro x hx
  obtain ⟨m, -, text, -, -⟩ := hall x hx
  exact text.isSome_iff

end

end Lowering

/-! ## Leaves of flat trees -/

/-- The links that lead from a node of a view to its children. -/
def Site.linksBelow (s : Site) : List Link := s.below.filterMap Site.link?

namespace NumberedNode

variable {t : NumberedNode} {s : Site}

/-- No link leads from a leaf, and one does from every other node. -/
theorem linksBelow_eq_nil_iff (hs : s ∈ t.hierarchy.levelOrder) :
    s.linksBelow = [] ↔ s.node.children = none := by
  obtain ⟨field, m, d⟩ := t.depicts_of_mem_levelOrder hs
  rw [d.children_eq, someUnlessEmpty_eq_none, Site.linksBelow, List.filterMap_eq_nil_iff]
  constructor
  · intro hnone
    have hbelow : s.below = [] := by
      refine List.eq_nil_iff_forall_not_mem.2 fun c hc => ?_
      obtain ⟨link, hlink⟩ := t.link?_of_mem_below hs hc
      rw [hnone c hc] at hlink
      cases hlink
    exact List.map_eq_nil_iff.1 hbelow
  · intro hnone c hc
    rw [Site.below, hnone] at hc
    exact absurd hc List.not_mem_nil

/-- In the lists, a leaf is a node whose number is the source of no link. -/
theorem children_eq_none_iff_source (distinct : t.preorderIds.Nodup)
    (hs : s ∈ t.hierarchy.levelOrder) :
    s.node.children = none ↔ ∀ link ∈ t.flatten.links, link.source ≠ s.entry.id := by
  have hfrom : t.flatten.linksFrom s.entry.id = s.linksBelow := linksFrom_flatten distinct hs
  rw [← linksBelow_eq_nil_iff hs, ← hfrom, FlatTree.linksFrom, List.filter_eq_nil_iff]
  simp

end NumberedNode

theorem Numbering.nodup_preorderIds {n : Numbering} {raw : RawNode}
    (room : n.assigned.toNat + (n.node raw).1.nodeCount ≤ 2 ^ 32) :
    (n.node raw).1.preorderIds.Nodup := by
  have hrange := preorderIds_node room
  refine List.Nodup.of_map UInt32.toNat ?_
  rw [hrange]
  exact List.nodup_range'

/-- **Text sits exactly on the leaves.** If neither the grammar nor the tree has a field of the name
of the text, the view of a lowered tree shows the texts of its leaves: the slices of the source at
their byte ranges, if texts are wanted. A node of the view has a text exactly if texts are wanted
and its children are absent; and then no link leads from it to a child. So a listed node has a text
exactly if texts are wanted and its number is the source of no link, if there are enough numbers
for all nodes. -/
theorem texts_on_leaves (l : Lowering) (root : SyntaxNode) (raw : RawNode)
    (unused : l.Unused [textField] root) (h : l.lower root = .ok raw) (n : Numbering) :
    let wanted := l.options.includeLeafText = true
    let tree := (n.node raw).1
    let flat := tree.flatten
    l.ShowsTexts root flat.hierarchy ∧
    (∀ s ∈ flat.hierarchy.sites 0 none,
      ((s.entry.attributes.get? textField).isSome = true ↔ wanted ∧ s.node.children = none) ∧
      (s.linksBelow = [] ↔ s.node.children = none)) ∧
    flat.nodes = flat.hierarchy.levelOrder.map Site.entry ∧
    flat.links = flat.hierarchy.levelOrder.flatMap Site.linksBelow ∧
    (n.assigned.toNat + tree.nodeCount ≤ 2 ^ 32 → ∀ e ∈ flat.nodes,
      (e.attributes.get? textField).isSome = true ↔
        wanted ∧ ∀ link ∈ flat.links, link.source ≠ e.id) := by
  intro wanted tree flat
  have shows : l.ShowsTexts root flat.hierarchy :=
    Lowering.showsTexts_of_lowerAt unused h (depicts_hierarchy tree)
  have htext := shows.of_mem_preorder (s := ⟨0, none, flat.hierarchy⟩)
  refine ⟨shows, fun s hs => ⟨htext s hs, ?_⟩, tree.nodes_flatten, tree.links_flatten, ?_⟩
  · exact tree.linksBelow_eq_nil_iff (List.mem_mergeSort.2 hs)
  · intro room e he
    obtain ⟨s, hs, rfl⟩ := List.mem_map.1 (tree.nodes_flatten ▸ he)
    rw [htext s (List.mem_mergeSort.1 hs),
      NumberedNode.children_eq_none_iff_source (Numbering.nodup_preorderIds room) hs]

theorem texts_on_leaves_sum :
    sumLowering.Unused [textField] sumTree ∧ sumLowering.lower sumTree = .ok sumNode ∧
    sumLowering.ShowsTexts sumTree (Numbering.node {} sumNode).1.flatten.hierarchy ∧
    ((Numbering.node {} sumNode).1.flatten.hierarchy.sites 0 none).map
        (fun s => (s.entry.name, s.entry.attributes.get? textField)) =
      [("sum", none), ("identifier", some (some (.str "a"))), ("integer", some (some (.str "1"))),
        ("comment", some (some (.str "# b")))] := by
  have unused : sumLowering.Unused [textField] sumTree := ⟨by decide, by decide⟩
  have lowered : sumLowering.lower sumTree = .ok sumNode := by rfl
  exact ⟨unused, lowered, (texts_on_leaves sumLowering sumTree sumNode unused lowered {}).1,
    by rfl⟩

end SyntaxGraph
