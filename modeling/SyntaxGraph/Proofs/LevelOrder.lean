import SyntaxGraph.Proofs.NestedView
import SyntaxGraph.Proofs.Numbering

/-!
# The lists of a flat tree are in level order

The queue of the walk holds parts of two levels at once: what is left of one level, and the
children of what has left it already. `visitsFrom_append` says that the first part can be taken
off as a whole, so the walk goes level by level (`levels`).

A level of the tree is what the pre-order listing of the nested view has at that depth, in the
same order. So the levels one after the other are the listing, sorted stably by depth
(`levels_eq_mergeSort`).

Main statement: `flatten_levelOrder`.
-/

namespace SyntaxGraph

/-! ## Sorting stably by a key -/

section StableSort

variable {α : Type} {key : α → Nat} {l m : List α}

theorem key_le_of_filter_eq {a b : α}
    (hm : (b :: m).Pairwise fun a b => key a ≤ key b)
    (same : (a :: l).filter (key · = key a) = (b :: m).filter (key · = key a)) :
    key b ≤ key a := by
  have ha : a ∈ (b :: m).filter (key · = key a) := by rw [← same]; simp
  rcases List.mem_cons.1 (List.mem_filter.1 ha).1 with rfl | h
  · exact Nat.le_refl _
  · exact (List.pairwise_cons.1 hm).1 a h

/-- Two sorted lists that agree on each key are equal. -/
theorem eq_of_filter_key_eq (hl : l.Pairwise fun a b => key a ≤ key b)
    (hm : m.Pairwise fun a b => key a ≤ key b)
    (same : ∀ k, l.filter (key · = k) = m.filter (key · = k)) : l = m := by
  induction l generalizing m with
  | nil =>
    cases m with
    | nil => rfl
    | cons b m => simpa using same (key b)
  | cons a l ih =>
    cases m with
    | nil => simpa using same (key a)
    | cons b m =>
      -- either head occurs in the other list, so neither key is below the other
      have hab : key a = key b := Nat.le_antisymm
        (key_le_of_filter_eq hl (same (key b)).symm) (key_le_of_filter_eq hm (same (key a)))
      have hhead := same (key a)
      rw [List.filter_cons_of_pos (by simp), List.filter_cons_of_pos (by simp [hab])] at hhead
      obtain ⟨rfl, -⟩ := List.cons.inj hhead
      rw [ih (List.pairwise_cons.1 hl).2 (List.pairwise_cons.1 hm).2 fun k => ?_]
      have h := same k
      by_cases hk : key a = k
      · rw [List.filter_cons_of_pos (by simpa using hk),
          List.filter_cons_of_pos (by simpa using hk)] at h
        exact (List.cons.inj h).2
      · rwa [List.filter_cons_of_neg (by simpa using hk),
          List.filter_cons_of_neg (by simpa using hk)] at h

theorem pairwise_mergeSort_key (l : List α) :
    (l.mergeSort fun a b => key a ≤ key b).Pairwise fun a b => key a ≤ key b := by
  have h : (l.mergeSort fun a b => key a ≤ key b).Pairwise fun a b =>
      decide (key a ≤ key b) = true := by
    refine List.pairwise_mergeSort ?_ ?_ l
    · simp only [decide_eq_true_eq]
      exact fun a b c => Nat.le_trans
    · simp only [Bool.or_eq_true, decide_eq_true_eq]
      exact fun a b => Nat.le_total _ _
  simpa using h

/-- The sort keeps the order of the items with one key. -/
theorem filter_mergeSort_key (l : List α) (k : Nat) :
    (l.mergeSort fun a b => key a ≤ key b).filter (key · = k) = l.filter (key · = k) := by
  have hsub : (l.filter (key · = k)).Sublist (l.mergeSort fun a b => key a ≤ key b) := by
    refine List.sublist_mergeSort ?_ ?_ ?_ List.filter_sublist
    · simp only [decide_eq_true_eq]
      exact fun a b c => Nat.le_trans
    · simp only [Bool.or_eq_true, decide_eq_true_eq]
      exact fun a b => Nat.le_total _ _
    · refine List.Pairwise.imp_of_mem (R := fun _ _ => True) (fun ha hb _ => ?_)
        (List.pairwise_of_forall fun _ _ => trivial)
      simp only [List.mem_filter, decide_eq_true_eq] at ha hb ⊢
      omega
  have hfilter := hsub.filter (key · = k)
  rw [List.filter_filter, show (fun a => decide (key a = k) && decide (key a = k)) =
    (fun a => decide (key a = k)) from funext fun a => Bool.and_self _] at hfilter
  exact (hfilter.eq_of_length ((List.mergeSort_perm l _).symm.filter _).length_eq).symm

/-- A sorted list that agrees with `l` on each key is `l` sorted stably. -/
theorem eq_mergeSort_key (hm : m.Pairwise fun a b => key a ≤ key b)
    (same : ∀ k, m.filter (key · = k) = l.filter (key · = k)) :
    m = l.mergeSort fun a b => key a ≤ key b :=
  eq_of_filter_key_eq hm (pairwise_mergeSort_key l) fun k => by rw [same, filter_mergeSort_key]

/-- A sorted list that is ordered by `R` on each key is ordered by key and `R`. -/
theorem pairwise_lex {R : α → α → Prop} (hl : l.Pairwise fun a b => key a ≤ key b)
    (within : ∀ k, (l.filter (key · = k)).Pairwise R) :
    l.Pairwise fun a b => key a < key b ∨ key a = key b ∧ R a b := by
  induction l with
  | nil => exact .nil
  | cons a l ih =>
    rw [List.pairwise_cons] at hl ⊢
    refine ⟨fun b hb => ?_, ih hl.2 fun k => ?_⟩
    · rcases Nat.lt_or_eq_of_le (hl.1 b hb) with hlt | heq
      · exact Or.inl hlt
      · have h := within (key a)
        rw [List.filter_cons_of_pos (by simp), List.pairwise_cons] at h
        exact Or.inr ⟨heq, h.1 b (List.mem_filter.2 ⟨hb, by simp [heq]⟩)⟩
    · exact (within k).sublist ((List.sublist_cons_self a l).filter _)

end StableSort

/-! ## Levels of a forest -/

/-- A node with all below it is one longer than all below it. -/
theorem length_preorder_below (forest : List Site) :
    ((forest.flatMap Site.below).flatMap Site.preorder).length + forest.length =
      (forest.flatMap Site.preorder).length := by
  induction forest with
  | nil => rfl
  | cons s rest ih =>
    rw [List.flatMap_cons, List.flatMap_cons, List.flatMap_append, List.length_append,
      List.length_append, Site.preorder_eq, List.length_cons, List.length_cons]
    omega

/-- The nodes of a forest, level by level. -/
def levels : List Site → List Site
  | [] => []
  | s :: rest => s :: rest ++ levels ((s :: rest).flatMap Site.below)
termination_by forest => (forest.flatMap Site.preorder).length
decreasing_by
  have h := length_preorder_below (s :: rest)
  rw [List.length_cons] at h
  omega

theorem levels_eq (forest : List Site) :
    levels forest = forest ++ levels (forest.flatMap Site.below) := by
  cases forest with
  | nil => simp [levels]
  | cons s rest => rw [levels]

/-- After the first level come the children of all nodes, in their order. -/
theorem levels_eq_append_below (forest : List Site) :
    levels forest = forest ++ (levels forest).flatMap Site.below := by
  induction forest using levels.induct with
  | case1 => simp [levels]
  | case2 s rest ih =>
    have h : (levels (s :: rest)).flatMap Site.below =
        levels ((s :: rest).flatMap Site.below) := by
      rw [levels_eq, List.flatMap_append, ← ih]
    rw [h, ← levels_eq]

/-- All nodes of a forest stand at one level. -/
def AtDepth (depth : Nat) (forest : List Site) : Prop := ∀ s ∈ forest, s.depth = depth

theorem AtDepth.below {depth : Nat} {forest : List Site} (h : AtDepth depth forest) :
    AtDepth (depth + 1) (forest.flatMap Site.below) := by
  intro x hx
  obtain ⟨s, hs, hx⟩ := List.mem_flatMap.1 hx
  obtain ⟨child, -, rfl⟩ := List.mem_map.1 hx
  show s.depth + 1 = _
  rw [h s hs]

theorem depth_le_of_mem_levels {depth : Nat} {forest : List Site} (h : AtDepth depth forest) :
    ∀ x ∈ levels forest, depth ≤ x.depth := by
  induction forest using levels.induct generalizing depth with
  | case1 => simp [levels]
  | case2 s rest ih =>
    intro x hx
    rw [levels_eq, List.mem_append] at hx
    rcases hx with hx | hx
    · exact Nat.le_of_eq (h x hx).symm
    · exact Nat.le_of_succ_le (ih h.below x hx)

theorem pairwise_levels {depth : Nat} {forest : List Site} (h : AtDepth depth forest) :
    (levels forest).Pairwise fun a b => a.depth ≤ b.depth := by
  induction forest using levels.induct generalizing depth with
  | case1 => simp [levels]
  | case2 s rest ih =>
    rw [levels_eq, List.pairwise_append]
    refine ⟨?_, ih h.below, fun a ha b hb => ?_⟩
    · exact List.Pairwise.imp_of_mem (R := fun _ _ => True)
        (fun ha hb _ => Nat.le_of_eq ((h _ ha).trans (h _ hb).symm))
        (List.pairwise_of_forall fun _ _ => trivial)
    · rw [h a ha]
      exact Nat.le_of_succ_le (depth_le_of_mem_levels h.below b hb)

/-- At the depth of a forest, its pre-order listing has the roots. -/
theorem filter_preorder_self {depth : Nat} {forest : List Site} (h : AtDepth depth forest) :
    (forest.flatMap Site.preorder).filter (·.depth = depth) = forest := by
  induction forest with
  | nil => rfl
  | cons s rest ih =>
    have hs : s.depth = depth := h s List.mem_cons_self
    have hbelow : (s.below.flatMap Site.preorder).filter (·.depth = depth) = [] := by
      refine List.filter_eq_nil_iff.2 fun x hx => ?_
      obtain ⟨c, hc, hx⟩ := List.mem_flatMap.1 hx
      obtain ⟨child, -, rfl⟩ := List.mem_map.1 hc
      have hle : s.depth + 1 ≤ x.depth := Site.depth_le_of_mem_preorder _ x hx
      simp only [decide_eq_true_eq]
      omega
    rw [List.flatMap_cons, List.filter_append, ih fun x hx => h x (List.mem_cons_of_mem s hx),
      Site.preorder_eq, List.filter_cons_of_pos (by simpa using hs), hbelow]
    rfl

/-- At any other depth, it has what the pre-order listing of the next level has. -/
theorem filter_preorder_below {depth k : Nat} {forest : List Site} (h : AtDepth depth forest)
    (hk : depth ≠ k) :
    (forest.flatMap Site.preorder).filter (·.depth = k) =
      ((forest.flatMap Site.below).flatMap Site.preorder).filter (·.depth = k) := by
  induction forest with
  | nil => rfl
  | cons s rest ih =>
    have hs : ¬ s.depth = k := by
      rw [h s List.mem_cons_self]
      exact hk
    rw [List.flatMap_cons, List.filter_append, ih fun x hx => h x (List.mem_cons_of_mem s hx),
      Site.preorder_eq, List.filter_cons_of_neg (by simpa using hs), List.flatMap_cons,
      List.flatMap_append, List.filter_append]

/-- The levels and the pre-order listing agree on each depth. -/
theorem filter_levels {depth : Nat} {forest : List Site} (h : AtDepth depth forest) (k : Nat) :
    (levels forest).filter (·.depth = k) = (forest.flatMap Site.preorder).filter (·.depth = k) := by
  induction forest using levels.induct generalizing depth with
  | case1 => simp [levels]
  | case2 s rest ih =>
    rw [levels_eq, List.filter_append]
    by_cases hk : depth = k
    · subst hk
      have hall : (s :: rest).filter (·.depth = depth) = s :: rest :=
        List.filter_eq_self.2 fun x hx => by simpa using h x hx
      have hrest : (levels ((s :: rest).flatMap Site.below)).filter (·.depth = depth) = [] := by
        refine List.filter_eq_nil_iff.2 fun x hx => ?_
        have hle : depth + 1 ≤ x.depth := depth_le_of_mem_levels h.below x hx
        simp only [decide_eq_true_eq]
        omega
      rw [hall, hrest, filter_preorder_self h, List.append_nil]
    · have hnone : (s :: rest).filter (·.depth = k) = [] := by
        refine List.filter_eq_nil_iff.2 fun x hx => ?_
        rw [h x hx]
        simpa using hk
      rw [hnone, ih h.below, filter_preorder_below h hk, List.nil_append]

/-- **The levels are the pre-order listing, sorted stably by depth.** -/
theorem levels_eq_mergeSort {depth : Nat} {forest : List Site} (h : AtDepth depth forest) :
    levels forest =
      (forest.flatMap Site.preorder).mergeSort fun a b => a.depth ≤ b.depth :=
  eq_mergeSort_key (pairwise_levels h) (filter_levels h)

/-! ## The queue goes level by level -/

namespace Queued

/-- The visit of a subtree that leaves the queue; a value leaf is not visited. -/
def visit? : Queued → Option Visit
  | ⟨parent, .node entry _⟩ => some ⟨parent, entry⟩
  | ⟨_, .value _⟩ => none

/-- What a subtree puts at the end of the queue when it leaves. -/
def below : Queued → List Queued
  | ⟨_, .node entry children⟩ => queueChildren entry.id children
  | ⟨_, .value _⟩ => []

/-- The nested copy of a subtree in the queue. -/
def site? (depth : Nat) : Queued → Option Site
  | ⟨parent, .node entry children⟩ =>
    some ⟨depth, parent.map (·.1),
      ⟨entry, someUnlessEmpty (hierarchiesOf children), parent.map (·.2)⟩⟩
  | ⟨_, .value _⟩ => none

end Queued

/-- The visit of a node of the nested view. -/
def Site.visit (s : Site) : Visit :=
  ⟨s.parent.bind fun source => s.node.field.map (source, ·), s.entry⟩

theorem Site.link?_visit (s : Site) : s.visit.link? = s.link? := by
  obtain ⟨depth, parent, ⟨entry, children, field⟩⟩ := s
  cases parent <;> cases field <;> rfl

/-- The front of a queue is visited as a whole before anything that it puts at the end. -/
theorem visitsFrom_append (front rest : List Queued) :
    visitsFrom (front ++ rest) =
      front.filterMap Queued.visit? ++ visitsFrom (rest ++ front.flatMap Queued.below) := by
  induction front generalizing rest with
  | nil => simp
  | cons q front ih =>
    obtain ⟨parent, subtree⟩ := q
    cases subtree with
    | value scalar =>
      rw [List.cons_append, visitsFrom, ih]
      rfl
    | node entry children =>
      rw [List.cons_append, visitsFrom, List.append_assoc, ih, List.append_assoc]
      rfl

theorem visitsFrom_eq (queue : List Queued) :
    visitsFrom queue =
      queue.filterMap Queued.visit? ++ visitsFrom (queue.flatMap Queued.below) := by
  have h := visitsFrom_append queue []
  rwa [List.append_nil, List.nil_append] at h

/-- Taking off a level leaves less in the queue. -/
theorem queueSize_below (queue : List Queued) :
    queueSize (queue.flatMap Queued.below) + queue.length = queueSize queue := by
  induction queue with
  | nil => rfl
  | cons q rest ih =>
    obtain ⟨parent, subtree⟩ := q
    rw [List.flatMap_cons, queueSize_append, queueSize, List.length_cons, ← ih]
    cases subtree with
    | value scalar =>
      rw [Queued.below, Numbered.size, queueSize]
      omega
    | node entry children =>
      rw [Queued.below, queueSize_queueChildren, Numbered.size]
      omega

theorem visits_eq_sites (queue : List Queued) (depth : Nat) :
    queue.filterMap Queued.visit? = (queue.filterMap (Queued.site? depth)).map Site.visit := by
  induction queue with
  | nil => rfl
  | cons q rest ih =>
    obtain ⟨parent, subtree⟩ := q
    cases subtree with
    | value scalar => exact ih
    | node entry children =>
      simp only [List.filterMap_cons, Queued.visit?, Queued.site?, List.map_cons, ih]
      cases parent <;> rfl

/-- The children in the queue are the children in the nested view. -/
theorem sites_queueChildren (id : NodeId) (depth : Nat) (children : List (String × Numbered)) :
    (queueChildren id children).filterMap (Queued.site? depth) =
      (hierarchiesOf children).map (Site.mk depth (some id)) := by
  induction children with
  | nil => rfl
  | cons c rest ih =>
    obtain ⟨field, child⟩ := c
    cases child with
    | value scalar => exact ih
    | node entry below =>
      rw [hierarchiesOf, hierarchyOf, List.map_cons, ← ih]
      rfl

theorem sites_below (queue : List Queued) (depth : Nat) :
    (queue.flatMap Queued.below).filterMap (Queued.site? (depth + 1)) =
      (queue.filterMap (Queued.site? depth)).flatMap Site.below := by
  induction queue with
  | nil => rfl
  | cons q rest ih =>
    obtain ⟨parent, subtree⟩ := q
    rw [List.flatMap_cons, List.filterMap_append, ih]
    cases subtree with
    | value scalar => rfl
    | node entry children =>
      rw [Queued.below, sites_queueChildren]
      simp only [List.filterMap_cons, Queued.site?, List.flatMap_cons, Site.below, Site.entry,
        Hierarchy.childList, getD_someUnlessEmpty]

/-- **The walk with the queue visits the levels of the nested view.** -/
theorem visitsFrom_eq_levels (queue : List Queued) (depth : Nat) :
    visitsFrom queue = (levels (queue.filterMap (Queued.site? depth))).map Site.visit := by
  induction h : queueSize queue using Nat.strongRecOn generalizing queue depth with
  | ind size ih =>
    cases queue with
    | nil => simp [visitsFrom, levels]
    | cons q rest =>
      have hsize := queueSize_below (q :: rest)
      rw [List.length_cons] at hsize
      rw [visitsFrom_eq, ih _ (by omega) ((q :: rest).flatMap Queued.below) (depth + 1) rfl,
        sites_below, visits_eq_sites _ depth, ← List.map_append, ← levels_eq]

/-! ## Flat trees -/

/-- The nodes of a nested view in pre-order, sorted stably by depth. -/
def Hierarchy.levelOrder (h : Hierarchy) : List Site :=
  (h.sites 0 none).mergeSort fun a b => a.depth ≤ b.depth

/-- At each depth, the level order has the nodes in pre-order. -/
theorem Hierarchy.filter_levelOrder (h : Hierarchy) (k : Nat) :
    h.levelOrder.filter (·.depth = k) = (h.sites 0 none).filter (·.depth = k) :=
  filter_mergeSort_key _ k

namespace NumberedNode

variable (t : NumberedNode)

theorem atDepth_root : AtDepth 0 [⟨0, none, t.hierarchy⟩] := by
  intro s hs
  rw [List.mem_singleton.1 hs]

theorem levelOrder_hierarchy : t.hierarchy.levelOrder = levels [⟨0, none, t.hierarchy⟩] := by
  rw [levels_eq_mergeSort t.atDepth_root, List.flatMap_singleton]
  rfl

/-- The root comes first, and then the children of all nodes in their order. -/
theorem levelOrder_eq_cons :
    t.hierarchy.levelOrder =
      ⟨0, none, t.hierarchy⟩ :: t.hierarchy.levelOrder.flatMap Site.below := by
  rw [t.levelOrder_hierarchy]
  exact levels_eq_append_below _

theorem visits_eq : t.visits = t.hierarchy.levelOrder.map Site.visit := by
  rw [visits, visitsFrom_eq_levels _ 0, t.levelOrder_hierarchy]
  rfl

theorem nodes_flatten : t.flatten.nodes = t.hierarchy.levelOrder.map Site.entry := by
  rw [flatten, t.visits_eq, List.map_map]
  rfl

/-- The links are those to the children of each node. -/
theorem links_flatten :
    t.flatten.links = t.hierarchy.levelOrder.flatMap fun s => s.below.filterMap Site.link? := by
  have hlinks : t.flatten.links = t.hierarchy.levelOrder.filterMap Site.link? := by
    rw [flatten, t.visits_eq, List.filterMap_map]
    exact List.filterMap_congr fun s _ => s.link?_visit
  rw [hlinks, t.levelOrder_eq_cons, List.filterMap_cons_none rfl, ← t.levelOrder_eq_cons,
    List.filterMap_flatMap]

/-- Every node in the level order is depicted. -/
theorem depicts_of_mem_levelOrder {s : Site} (hs : s ∈ t.hierarchy.levelOrder) :
    ∃ field n, Depicts field n s.node :=
  Depicts.of_mem_preorder (s := ⟨0, none, t.hierarchy⟩) ⟨none, t, depicts_hierarchy t⟩ s
    (List.mem_mergeSort.1 hs)

/-- There is a link to every child. -/
theorem link?_of_mem_below {s c : Site} (hs : s ∈ t.hierarchy.levelOrder) (hc : c ∈ s.below) :
    ∃ link, c.link? = some link := by
  obtain ⟨field, n, d⟩ := t.depicts_of_mem_levelOrder hs
  obtain ⟨child, hchild, rfl⟩ := List.mem_map.1 hc
  obtain ⟨via, m, dchild⟩ := d.child hchild
  exact ⟨⟨s.entry.id, child.entry.id, via⟩, by simp [Site.link?, dchild.field_eq, Site.entry]⟩

/-- There is one link for each node but the root, in the same order. -/
theorem map_some_links :
    t.flatten.links.map some = (t.hierarchy.levelOrder.flatMap Site.below).map Site.link? := by
  rw [t.links_flatten, ← List.filterMap_flatMap]
  have hsome : ∀ c ∈ t.hierarchy.levelOrder.flatMap Site.below, ∃ link, c.link? = some link := by
    intro c hc
    obtain ⟨s, hs, hc⟩ := List.mem_flatMap.1 hc
    exact t.link?_of_mem_below hs hc
  generalize t.hierarchy.levelOrder.flatMap Site.below = sites at hsome
  induction sites with
  | nil => rfl
  | cons c rest ih =>
    obtain ⟨link, hlink⟩ := hsome c List.mem_cons_self
    rw [List.filterMap_cons_some hlink, List.map_cons, List.map_cons, hlink,
      ih fun x hx => hsome x (List.mem_cons_of_mem c hx)]

/-- The link at `i` leads to the node after it in the level order. -/
theorem exists_of_links_getElem? {i : Nat} {link : Link} (h : t.flatten.links[i]? = some link) :
    ∃ s, t.hierarchy.levelOrder[i + 1]? = some s ∧ s.link? = some link := by
  have hget : (t.flatten.links.map some)[i]? = some (some link) := by
    rw [List.getElem?_map, h]
    rfl
  rw [t.map_some_links, List.getElem?_map, Option.map_eq_some_iff] at hget
  obtain ⟨s, hs, hlink⟩ := hget
  exact ⟨s, by rw [t.levelOrder_eq_cons, List.getElem?_cons_succ, hs], hlink⟩

/-- In pre-order the numbers of a numbered tree only grow. -/
theorem pairwise_id_sites {n : Numbering} {raw : RawNode}
    (room : n.assigned.toNat + (n.node raw).1.nodeCount ≤ 2 ^ 32) :
    ((n.node raw).1.hierarchy.sites 0 none).Pairwise fun a b => a.entry.id < b.entry.id := by
  have h : ((n.node raw).1.preorderIds.map UInt32.toNat).Pairwise (· < ·) := by
    rw [Numbering.preorderIds_node room]
    exact List.pairwise_lt_range'
  rw [preorderIds_eq, ← entries_hierarchy, List.pairwise_map, List.pairwise_map,
    List.pairwise_map] at h
  exact h.imp fun hab => UInt32.lt_iff_toNat_lt.2 hab

end NumberedNode

theorem Site.eq_of_link?_eq_some {s : Site} {link : Link} (h : s.link? = some link) :
    s.parent = some link.source ∧ s.node.field = some link.field ∧
      link.target = s.entry.id := by
  simp only [link?, Option.bind_eq_some_iff, Option.map_eq_some_iff] at h
  obtain ⟨source, hsource, field, hfield, rfl⟩ := h
  exact ⟨hsource, hfield, rfl⟩

/-- **The lists of a flat tree are its nested view in level order.** The view depicts the tree,
and the nodes are its pre-order listing, sorted stably by depth. There is one link less; the link
at `i` leads to the node at `i + 1`, from its parent and by the field that holds it, and the links
from one node stand together in the order of its children. In a numbered tree, depth and number
grow along the nodes, as long as the numbering has not run out of numbers. -/
theorem flatten_levelOrder (t : NumberedNode) :
    let order := t.flatten.hierarchy.levelOrder
    Depicts none t t.flatten.hierarchy ∧
    t.flatten.nodes = order.map Site.entry ∧
    t.flatten.links.length = t.flatten.nodes.length - 1 ∧
    (∀ i link, t.flatten.links[i]? = some link →
      ∃ s, order[i + 1]? = some s ∧ t.flatten.nodes[i + 1]? = some s.entry ∧
        s.parent = some link.source ∧ s.node.field = some link.field ∧
        link.target = s.entry.id) ∧
    t.flatten.links = (order.flatMap fun s => s.below.filterMap Site.link?) ∧
    ∀ (n : Numbering) (raw : RawNode), t = (n.node raw).1 →
      n.assigned.toNat + t.nodeCount ≤ 2 ^ 32 →
      order.Pairwise fun a b =>
        a.depth < b.depth ∨ a.depth = b.depth ∧ a.entry.id < b.entry.id := by
  intro order
  refine ⟨depicts_hierarchy t, t.nodes_flatten, ?_, fun i link h => ?_, t.links_flatten, ?_⟩
  · rw [← List.length_map some, t.map_some_links, t.nodes_flatten, t.levelOrder_eq_cons]
    simp only [List.length_map, List.length_cons, Nat.add_sub_cancel]
    rw [← t.levelOrder_eq_cons]
  · obtain ⟨s, hs, hlink⟩ := t.exists_of_links_getElem? h
    refine ⟨s, hs, ?_, Site.eq_of_link?_eq_some hlink⟩
    rw [t.nodes_flatten, List.getElem?_map, hs]
    rfl
  · rintro n raw rfl room
    refine pairwise_lex (pairwise_mergeSort_key _) fun k => ?_
    rw [show order.filter _ = _ from Hierarchy.filter_levelOrder _ k]
    exact (NumberedNode.pairwise_id_sites room).filter _

theorem flatten_levelOrder_mixed :
    ({} : Numbering).assigned.toNat + (Numbering.node {} mixedNode).1.nodeCount ≤ 2 ^ 32 ∧
    (Numbering.node {} mixedNode).1.flatten.hierarchy.levelOrder.Pairwise fun a b =>
      a.depth < b.depth ∨ a.depth = b.depth ∧ a.entry.id < b.entry.id := by
  have room : ({} : Numbering).assigned.toNat + (Numbering.node {} mixedNode).1.nodeCount ≤
      2 ^ 32 := by decide
  obtain ⟨-, -, -, -, -, hpairwise⟩ := flatten_levelOrder (Numbering.node {} mixedNode).1
  exact ⟨room, hpairwise {} mixedNode rfl room⟩

end SyntaxGraph
