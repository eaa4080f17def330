import SyntaxGraph.FlatTree.Flatten
import SyntaxGraph.Proofs.Outcomes
import SyntaxGraph.Proofs.TreeListing

/-!
# The nested view of a tree

`Depicts` says what a nested view has to show of a node: its entry, the field that holds it, and
its child nodes in order, each depicted in turn. The children are absent exactly on a node without
child nodes.

A `Site` is a node of a nested view with its level and the number of its parent.
`Hierarchy.sites` lists them in pre-order. What is proved later about the level order of a tree is
stated against this listing.

Main statement: `depicts_hierarchy`, the copy that flattening makes depicts its tree.
-/

namespace SyntaxGraph

/-! ## Absent listings -/

@[simp] theorem getD_someUnlessEmpty {α : Type} (l : List α) : (someUnlessEmpty l).getD [] = l := by
  cases l <;> rfl

@[simp] theorem someUnlessEmpty_eq_none {α : Type} {l : List α} :
    someUnlessEmpty l = none ↔ l = [] := by
  cases l <;> simp [someUnlessEmpty]

/-! ## Depiction -/

/-- `h` shows the node `n`, held by `field`. -/
inductive Depicts : Option String → NumberedNode → Hierarchy → Prop
  | intro {field : Option String} {n : NumberedNode} {h : Hierarchy} (entry : h.entry = n.entry)
      (held : h.field = field) (absent : h.children = none ↔ n.childNodes = [])
      (children : List.Forall₂ (fun c child => Depicts (some c.1) c.2 child) n.childNodes
        h.childList) : Depicts field n h

theorem depicts_mk {entry : Entry} {children : List (String × Numbered)} (field : Option String)
    (h : List.Forall₂ (fun c child => Depicts (some c.1) c.2 child)
      (⟨entry, children⟩ : NumberedNode).childNodes (hierarchiesOf children)) :
    Depicts field ⟨entry, children⟩ ⟨entry, someUnlessEmpty (hierarchiesOf children), field⟩ := by
  refine .intro rfl rfl ?_ ?_
  · rw [someUnlessEmpty_eq_none, ← List.length_eq_zero_iff, ← List.length_eq_zero_iff, h.length_eq]
  · rw [Hierarchy.childList, getD_someUnlessEmpty]
    exact h

/-- The copies of the children depict the child nodes, in order. -/
theorem depicts_hierarchiesOf (entry : Entry) :
    ∀ children : List (String × Numbered),
      List.Forall₂ (fun c child => Depicts (some c.1) c.2 child)
        (⟨entry, children⟩ : NumberedNode).childNodes (hierarchiesOf children)
  | [] => .nil
  | (_, .value _) :: rest => depicts_hierarchiesOf entry rest
  | (field, .node e below) :: rest =>
    .cons (depicts_mk (some field) (depicts_hierarchiesOf e below))
      (depicts_hierarchiesOf entry rest)

/-- **The nested copy depicts its tree.** -/
theorem depicts_hierarchy (t : NumberedNode) : Depicts none t t.hierarchy :=
  depicts_mk none (depicts_hierarchiesOf t.entry t.children)

namespace Depicts

variable {field : Option String} {n : NumberedNode} {h : Hierarchy}

/-- The children of a depiction are the listing that is kept unless it is empty. -/
theorem children_eq (d : Depicts field n h) : h.children = someUnlessEmpty h.childList := by
  obtain ⟨-, -, absent, children⟩ := d
  cases hc : h.children with
  | none => rw [Hierarchy.childList, hc]; rfl
  | some l =>
    cases l with
    | nil =>
      have hlist : h.childList = [] := by rw [Hierarchy.childList, hc]; rfl
      rw [hlist, List.forall₂_nil_right_iff] at children
      rw [absent.2 children] at hc
      exact absurd hc (by simp)
    | cons c rest => rw [Hierarchy.childList, hc]; rfl

theorem child (d : Depicts field n h) {c : Hierarchy} (hc : c ∈ h.childList) :
    ∃ via m, Depicts (some via) m c := by
  obtain ⟨-, -, -, children⟩ := d
  obtain ⟨m, -, dchild⟩ := exists_of_mem_of_forall₂ children hc
  exact ⟨m.1, m.2, dchild⟩

theorem field_eq (d : Depicts field n h) : h.field = field := by
  obtain ⟨-, held, -, -⟩ := d
  exact held

end Depicts

/-! ## Sites -/

/-- A node of a nested view, where the listing of the view meets it. -/
structure Site where
  /-- the number of levels above it -/
  depth : Nat
  /-- the number of its parent; the root has none -/
  parent : Option NodeId
  node : Hierarchy

namespace Hierarchy

theorem induct {motive : Hierarchy → Prop}
    (step : ∀ h, (∀ c ∈ h.childList, motive c) → motive h) : ∀ h, motive h
  | ⟨entry, none, field⟩ => step _ fun c hc => absurd hc List.not_mem_nil
  | ⟨entry, some children, field⟩ => step _ fun c hc =>
    have : sizeOf c < sizeOf children := List.sizeOf_lt_of_mem hc
    induct step c
termination_by h => sizeOf h
decreasing_by
  simp only [Hierarchy.mk.sizeOf_spec, Option.some.sizeOf_spec]
  omega

mutual

/-- The nodes of a nested view in pre-order, with level and parent. -/
def sites (depth : Nat) (parent : Option NodeId) : Hierarchy → List Site
  | ⟨entry, none, field⟩ => [⟨depth, parent, ⟨entry, none, field⟩⟩]
  | ⟨entry, some children, field⟩ =>
    ⟨depth, parent, ⟨entry, some children, field⟩⟩ ::
      sitesList (depth + 1) (some entry.id) children

/-- The nodes of several nested views under one parent. -/
def sitesList (depth : Nat) (parent : Option NodeId) : List Hierarchy → List Site
  | [] => []
  | h :: rest => h.sites depth parent ++ sitesList depth parent rest

end

end Hierarchy

namespace Site

def entry (s : Site) : Entry := s.node.entry

/-- The link to the node; the root has none. -/
def link? (s : Site) : Option Link :=
  s.parent.bind fun source => s.node.field.map fun field => ⟨source, s.entry.id, field⟩

def below (s : Site) : List Site :=
  s.node.childList.map fun child => ⟨s.depth + 1, some s.entry.id, child⟩

/-- The node and all below it, in pre-order. -/
def preorder (s : Site) : List Site := s.node.sites s.depth s.parent

end Site

theorem Hierarchy.sitesList_eq (depth : Nat) (parent : Option NodeId) (hs : List Hierarchy) :
    sitesList depth parent hs = (hs.map (Site.mk depth parent)).flatMap Site.preorder := by
  induction hs with
  | nil => rfl
  | cons h rest ih => rw [sitesList, ih, List.map_cons, List.flatMap_cons]; rfl

theorem Site.preorder_eq (s : Site) : s.preorder = s :: s.below.flatMap Site.preorder := by
  obtain ⟨depth, parent, ⟨entry, children, field⟩⟩ := s
  cases children with
  | none => rfl
  | some children => rw [preorder, Hierarchy.sites, Hierarchy.sitesList_eq]; rfl

theorem Site.depth_le_of_mem_preorder (s : Site) : ∀ x ∈ s.preorder, s.depth ≤ x.depth := by
  obtain ⟨depth, parent, node⟩ := s
  induction node using Hierarchy.induct generalizing depth parent with
  | step h ih =>
    intro x hx
    rw [preorder_eq, List.mem_cons, List.mem_flatMap] at hx
    rcases hx with rfl | ⟨c, hc, hx⟩
    · exact Nat.le_refl _
    · obtain ⟨child, hchild, rfl⟩ := List.mem_map.1 hc
      exact Nat.le_of_succ_le (ih child hchild (depth + 1) _ x hx)

/-- The listing below a node of a listing is a part of it. -/
theorem Site.preorder_sublist_of_mem {s : Site} :
    ∀ x ∈ s.preorder, x.preorder.Sublist s.preorder := by
  obtain ⟨depth, parent, node⟩ := s
  induction node using Hierarchy.induct generalizing depth parent with
  | step h ih =>
    intro x hx
    rw [preorder_eq, List.mem_cons, List.mem_flatMap] at hx
    rcases hx with rfl | ⟨c, hc, hx⟩
    · exact List.Sublist.refl _
    · have hbelow : c.preorder.Sublist ((Site.mk depth parent h).below.flatMap preorder) := by
        rw [List.flatMap_def]
        exact List.sublist_flatten_of_mem (List.mem_map_of_mem hc)
      obtain ⟨child, hchild, rfl⟩ := List.mem_map.1 hc
      rw [preorder_eq ⟨depth, parent, h⟩]
      exact ((ih child hchild (depth + 1) _ x hx).trans hbelow).trans (List.sublist_cons_self _ _)

theorem Site.mem_preorder_of_mem_below {s x c : Site} (hx : x ∈ s.preorder) (hc : c ∈ x.below) :
    c ∈ s.preorder := by
  refine (preorder_sublist_of_mem x hx).subset ?_
  rw [x.preorder_eq]
  refine List.mem_cons_of_mem _ (List.mem_flatMap.2 ⟨c, hc, ?_⟩)
  rw [c.preorder_eq]
  exact List.mem_cons_self

/-- A node of a listing is its first, or is below another. -/
theorem Site.eq_or_mem_below {s : Site} :
    ∀ x ∈ s.preorder, x = s ∨ ∃ p ∈ s.preorder, x ∈ p.below := by
  obtain ⟨depth, parent, node⟩ := s
  induction node using Hierarchy.induct generalizing depth parent with
  | step h ih =>
    intro x hx
    have hself : (⟨depth, parent, h⟩ : Site) ∈ preorder ⟨depth, parent, h⟩ := by
      rw [preorder_eq]
      exact List.mem_cons_self
    rw [preorder_eq, List.mem_cons, List.mem_flatMap] at hx
    rcases hx with rfl | ⟨c, hc, hx⟩
    · exact .inl rfl
    · obtain ⟨child, hchild, rfl⟩ := List.mem_map.1 hc
      rcases ih child hchild (depth + 1) _ x hx with rfl | ⟨p, hp, hbelow⟩
      · exact .inr ⟨_, hself, hc⟩
      · have hlisted := mem_preorder_of_mem_below hself hc
        exact .inr ⟨p, (preorder_sublist_of_mem _ hlisted).subset hp, hbelow⟩

/-- What passes from every node to its children holds below a node that has it. -/
theorem Site.of_mem_preorder {P : Hierarchy → Prop} (pass : ∀ h, P h → ∀ c ∈ h.childList, P c)
    {s : Site} (hs : P s.node) : ∀ x ∈ s.preorder, P x.node := by
  obtain ⟨depth, parent, node⟩ := s
  induction node using Hierarchy.induct generalizing depth parent with
  | step h ih =>
    intro x hx
    rw [Site.preorder_eq, List.mem_cons, List.mem_flatMap] at hx
    rcases hx with rfl | ⟨c, hc, hx⟩
    · exact hs
    · obtain ⟨child, hchild, rfl⟩ := List.mem_map.1 hc
      exact ih child hchild (depth + 1) _ (pass h hs child hchild) x hx

theorem Depicts.of_mem_preorder {s : Site} (d : ∃ field n, Depicts field n s.node) :
    ∀ x ∈ s.preorder, ∃ field n, Depicts field n x.node := by
  refine Site.of_mem_preorder (P := fun h => ∃ field n, Depicts field n h) ?_ d
  rintro h ⟨field, n, d⟩ c hc
  obtain ⟨via, m, dchild⟩ := d.child hc
  exact ⟨some via, m, dchild⟩

/-! ## Entries of the copy -/

/-- A node of the copy is listed before the copies of its children. -/
theorem Site.preorder_copy (depth : Nat) (parent : Option NodeId) (entry : Entry)
    (children : List (String × Numbered)) (field : Option String) :
    (Site.preorder ⟨depth, parent, ⟨entry, someUnlessEmpty (hierarchiesOf children), field⟩⟩).map
        Site.entry =
      entry :: (Hierarchy.sitesList (depth + 1) (some entry.id) (hierarchiesOf children)).map
        Site.entry := by
  rw [preorder_eq, List.map_cons, Hierarchy.sitesList_eq, below, Hierarchy.childList,
    getD_someUnlessEmpty]
  rfl

theorem entries_hierarchiesOf (depth : Nat) (parent : Option NodeId) :
    ∀ children : List (String × Numbered),
      (Hierarchy.sitesList depth parent (hierarchiesOf children)).map Site.entry =
        Numbered.entriesList children
  | [] => rfl
  | (_, .value _) :: rest => entries_hierarchiesOf depth parent rest
  | (field, .node entry below) :: rest => by
    rw [hierarchiesOf, hierarchyOf]
    show (Site.preorder ⟨depth, parent, _⟩ ++ _).map Site.entry = _
    rw [List.map_append, Site.preorder_copy, entries_hierarchiesOf depth parent rest,
      entries_hierarchiesOf (depth + 1) (some entry.id) below, Numbered.entriesList,
      Numbered.entries]

/-- The copy lists the entries of its tree in pre-order. -/
theorem entries_hierarchy (t : NumberedNode) :
    (t.hierarchy.sites 0 none).map Site.entry = t.toNumbered.entries := by
  have h := Site.preorder_copy 0 none t.entry t.children none
  rw [entries_hierarchiesOf] at h
  exact h

end SyntaxGraph
