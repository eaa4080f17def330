import SyntaxGraph.FlatTree.Rebuild
import SyntaxGraph.Proofs.Keys
import SyntaxGraph.Proofs.LevelOrder

/-!
# Rebuilding the nested view from the lists

When no number occurs twice in a tree, its lists say all that its nested view says. A number means
one entry (`entry?_of_mem`); the links from it are those that flattening made for the children of
that node, and stand together (`linksFrom_flatten`); and the root is the one node without a link
to it (`roots_flatten`). So rebuilding grows the very view that was flattened, node by node
(`grow_flatten`).

The bound on the height of the view is no obstacle: a view has no chain longer than its list of
nodes.

Main statement: `rebuild_flatten`. It equates two views, a stronger fact than their comparison,
which tells a float apart from itself when it is no number.
-/

namespace SyntaxGraph

/-! ## Entries by number -/

theorem flatMap_ite {α β : Type} (p : α → Prop) [DecidablePred p] (f : α → List β) (l : List α) :
    (l.flatMap fun x => if p x then f x else []) = (l.filter p).flatMap f := by
  induction l with
  | nil => rfl
  | cons a rest ih =>
    by_cases ha : p a
    · rw [List.flatMap_cons, if_pos ha, List.filter_cons_of_pos (by simpa using ha),
        List.flatMap_cons, ih]
    · rw [List.flatMap_cons, if_neg ha, List.filter_cons_of_neg (by simpa using ha), ih,
        List.nil_append]

namespace FlatTree

theorem entry?_of_mem {t : FlatTree} {e : Entry} (distinct : (t.nodes.map (·.id)).Nodup)
    (he : e ∈ t.nodes) : t.entry? e.id = some e := by
  rw [FlatTree.entry?, filter_key_eq_singleton distinct he]
  rfl

theorem grow_succ (t : FlatTree) (height : Nat) (entry : Entry) (field : Option String) :
    t.grow (height + 1) entry field =
      ((t.childEntries entry.id).mapM fun c => t.grow height c.1 (some c.2)) >>=
        fun children => .ok ⟨entry, someUnlessEmpty children, field⟩ := rfl

/-- Children that are grown one by one are grown together. -/
theorem mapM_grow {t : FlatTree} {height : Nat} :
    ∀ {children : List Hierarchy},
      (∀ c ∈ children, ∃ via, c.field = some via ∧ t.grow height c.entry (some via) = .ok c) →
      (children.filterMap fun c => c.field.map (c.entry, ·)).mapM
        (fun c => t.grow height c.1 (some c.2)) = .ok children
  | [], _ => rfl
  | c :: rest, h => by
    obtain ⟨via, hfield, hgrow⟩ := h c List.mem_cons_self
    have hrest := mapM_grow fun x hx => h x (List.mem_cons_of_mem c hx)
    rw [List.filterMap_cons_some (b := (c.entry, via)) (by rw [hfield]; rfl), List.mapM_cons, hgrow,
      hrest]
    rfl

end FlatTree

/-! ## Lists made by flattening -/

namespace NumberedNode

variable {t : NumberedNode}

/-- The numbers of the nodes, level by level, are those of the tree in another order. -/
theorem nodup_id_levelOrder (distinct : t.preorderIds.Nodup) :
    (t.hierarchy.levelOrder.map (·.entry.id)).Nodup := by
  rw [preorderIds_eq, ← entries_hierarchy, List.map_map] at distinct
  exact ((List.mergeSort_perm _ _).map _).nodup_iff.2 distinct

/-- The level order has the children of each of its nodes. -/
theorem mem_levelOrder_of_mem_below {s c : Site} (hs : s ∈ t.hierarchy.levelOrder)
    (hc : c ∈ s.below) : c ∈ t.hierarchy.levelOrder := by
  rw [t.levelOrder_eq_cons]
  exact List.mem_cons_of_mem _ (List.mem_flatMap.2 ⟨s, hs, hc⟩)

theorem entry?_flatten (distinct : t.preorderIds.Nodup) {s : Site}
    (hs : s ∈ t.hierarchy.levelOrder) : t.flatten.entry? s.entry.id = some s.entry := by
  refine FlatTree.entry?_of_mem ?_ ?_
  · rw [t.nodes_flatten, List.map_map]
    exact nodup_id_levelOrder distinct
  · rw [t.nodes_flatten]
    exact List.mem_map_of_mem hs

/-- The links from a node are those to its children. -/
theorem linksFrom_flatten (distinct : t.preorderIds.Nodup) {s : Site}
    (hs : s ∈ t.hierarchy.levelOrder) :
    t.flatten.linksFrom s.entry.id = s.below.filterMap Site.link? := by
  have hfilter : ∀ x : Site, (x.below.filterMap Site.link?).filter (·.source = s.entry.id) =
      if x.entry.id = s.entry.id then x.below.filterMap Site.link? else [] := by
    intro x
    have hsource : ∀ link ∈ x.below.filterMap Site.link?, link.source = x.entry.id := by
      intro link hlink
      obtain ⟨c, hc, hlink⟩ := List.mem_filterMap.1 hlink
      obtain ⟨child, -, rfl⟩ := List.mem_map.1 hc
      exact (Option.some.inj (Site.eq_of_link?_eq_some hlink).1).symm
    split
    · rename_i heq
      exact List.filter_eq_self.2 fun link hlink => by simpa [hsource link hlink] using heq
    · rename_i hne
      exact List.filter_eq_nil_iff.2 fun link hlink => by simpa [hsource link hlink] using hne
  have honly : t.hierarchy.levelOrder.filter (·.entry.id = s.entry.id) = [s] :=
    filter_key_eq_singleton (nodup_id_levelOrder distinct) hs
  rw [FlatTree.linksFrom, t.links_flatten, List.filter_flatMap]
  simp only [hfilter]
  rw [flatMap_ite, honly, List.flatMap_singleton]

/-- The entries linked from a node are those of its children, with their fields. -/
theorem childEntries_flatten (distinct : t.preorderIds.Nodup) {s : Site}
    (hs : s ∈ t.hierarchy.levelOrder) :
    t.flatten.childEntries s.entry.id =
      s.node.childList.filterMap fun c => c.field.map (c.entry, ·) := by
  rw [FlatTree.childEntries, linksFrom_flatten distinct hs, List.filterMap_filterMap, Site.below,
    List.filterMap_map]
  refine List.filterMap_congr fun c hc => ?_
  have hsite : (⟨s.depth + 1, some s.entry.id, c⟩ : Site) ∈ s.below := List.mem_map.2 ⟨c, hc, rfl⟩
  have hentry : t.flatten.entry? c.entry.id = some c.entry :=
    entry?_flatten distinct (mem_levelOrder_of_mem_below hs hsite)
  cases hfield : c.field with
  | none => simp [Site.link?, hfield]
  | some via => simp [Site.link?, Site.entry, hfield, hentry]

/-- The numbers that a link leads to are those of the nodes below another. -/
theorem any_target_flatten (t : NumberedNode) (id : NodeId) :
    (t.flatten.links.any fun l => l.target = id) = true ↔
      ∃ c ∈ t.hierarchy.levelOrder.flatMap Site.below, c.entry.id = id := by
  rw [t.links_flatten, ← List.filterMap_flatMap, List.any_eq_true]
  constructor
  · rintro ⟨link, hlink, hid⟩
    obtain ⟨c, hc, hlink⟩ := List.mem_filterMap.1 hlink
    refine ⟨c, hc, ?_⟩
    rw [← (Site.eq_of_link?_eq_some hlink).2.2]
    simpa using hid
  · rintro ⟨c, hc, rfl⟩
    obtain ⟨s, hs, hbelow⟩ := List.mem_flatMap.1 hc
    obtain ⟨link, hlink⟩ := t.link?_of_mem_below hs hbelow
    exact ⟨link, List.mem_filterMap.2 ⟨c, hc, hlink⟩, by
      simp [(Site.eq_of_link?_eq_some hlink).2.2]⟩

/-- The root is the one entry without a link to it. -/
theorem roots_flatten (distinct : t.preorderIds.Nodup) : t.flatten.roots = [t.entry] := by
  have hnodup := nodup_id_levelOrder distinct
  rw [t.levelOrder_eq_cons, List.map_cons, List.nodup_cons] at hnodup
  rw [FlatTree.roots, t.nodes_flatten, t.levelOrder_eq_cons, List.map_cons,
    List.filter_cons_of_pos, List.filter_eq_nil_iff.2]
  · rfl
  · intro e he
    obtain ⟨c, hc, rfl⟩ := List.mem_map.1 he
    have hany := (t.any_target_flatten c.entry.id).2 ⟨c, hc, rfl⟩
    simp [hany]
  · -- a link to the root would lead to a node below another with the number of the root
    have hany : ¬ (t.flatten.links.any fun l => l.target = t.hierarchy.entry.id) = true := by
      rw [t.any_target_flatten]
      rintro ⟨c, hc, hid⟩
      exact hnodup.1 (List.mem_map.2 ⟨c, hc, hid⟩)
    show (!_) = true
    rw [Bool.not_eq_true']
    exact Bool.eq_false_iff.2 hany

/-- **A node is grown back with all below it**, given room for the levels below it. -/
theorem grow_flatten (distinct : t.preorderIds.Nodup) {height : Nat} {s : Site}
    (hs : s ∈ t.hierarchy.levelOrder) (room : s.preorder.length ≤ height) :
    t.flatten.grow height s.entry s.node.field = .ok s.node := by
  induction height generalizing s with
  | zero =>
    rw [Site.preorder_eq, List.length_cons] at room
    omega
  | succ height ih =>
    obtain ⟨field, n, d⟩ := t.depicts_of_mem_levelOrder hs
    have hchildren : ∀ c ∈ s.node.childList, ∃ via, c.field = some via ∧
        t.flatten.grow height c.entry (some via) = .ok c := by
      intro c hc
      obtain ⟨via, m, dchild⟩ := d.child hc
      have hsite : (⟨s.depth + 1, some s.entry.id, c⟩ : Site) ∈ s.below :=
        List.mem_map.2 ⟨c, hc, rfl⟩
      -- the listing below a child is a part of the listing below the node, without the node
      have hlen : (⟨s.depth + 1, some s.entry.id, c⟩ : Site).preorder.length ≤ height := by
        have hle := (List.sublist_flatten_of_mem (List.mem_map_of_mem (f := Site.preorder)
          hsite)).length_le
        rw [Site.preorder_eq, List.length_cons, List.flatMap_def] at room
        omega
      have hgrow := ih (mem_levelOrder_of_mem_below hs hsite) hlen
      simp only [Site.entry, dchild.field_eq] at hgrow
      exact ⟨via, dchild.field_eq, hgrow⟩
    rw [FlatTree.grow_succ, childEntries_flatten distinct hs, FlatTree.mapM_grow hchildren]
    show Except.ok _ = Except.ok _
    rw [← d.children_eq]
    cases hnode : s.node with
    | mk entry children field => simp only [Site.entry, hnode]

end NumberedNode

/-- **The lists of a tree hold its nested view.** If no number occurs twice, rebuilding gives the
nested copy that flattening made beside the lists, and that copy depicts the tree: its entries and
fields, its children in order, absent exactly where there are no child nodes. -/
theorem rebuild_flatten (t : NumberedNode) (distinct : t.preorderIds.Nodup) :
    t.flatten.rebuild = .ok t.flatten.hierarchy ∧ Depicts none t t.flatten.hierarchy := by
  refine ⟨?_, depicts_hierarchy t⟩
  have hroot : (⟨0, none, t.hierarchy⟩ : Site) ∈ t.hierarchy.levelOrder := by
    rw [t.levelOrder_eq_cons]
    exact List.mem_cons_self
  have hlen : (⟨0, none, t.hierarchy⟩ : Site).preorder.length ≤ t.flatten.nodes.length := by
    rw [t.nodes_flatten, List.length_map, Hierarchy.levelOrder, List.length_mergeSort]
    exact Nat.le_refl _
  have hgrow := NumberedNode.grow_flatten distinct hroot hlen
  rw [FlatTree.rebuild, NumberedNode.roots_flatten distinct]
  exact hgrow

/-- A tree whose numbers are in no order, with a value leaf before its child nodes. -/
def shuffledTree : NumberedNode where
  entry := ⟨7, "comparison", ∅⟩
  children := [("operator", .value (.str "<")),
    ("left", .node ⟨2, "call", ∅⟩ [("function", .node ⟨9, "identifier", ∅⟩ [])]),
    ("right", .node ⟨0, "integer", ∅⟩ [])]

theorem rebuild_flatten_shuffled :
    shuffledTree.preorderIds.Nodup ∧
    shuffledTree.flatten.rebuild = .ok shuffledTree.flatten.hierarchy := by
  have distinct : shuffledTree.preorderIds.Nodup := by
    rw [NumberedNode.preorderIds_eq]
    decide
  exact ⟨distinct, (rebuild_flatten shuffledTree distinct).1⟩

end SyntaxGraph
