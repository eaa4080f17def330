import SyntaxGraph.Proofs.Circles

/-!
# Rebuilding the nested view of lists in any order

What grows from an entry follows the lists: every node is listed, and the links to its children are
its links, in their order (`follows_of_grow`). Where the lists are those of a tree, the growth ends
before the bound on its height, since a chain of links is no longer than the list of nodes
(`exists_grow`). A node of the view stands at the end of its chain, and a number has one chain, so
no entry is shown twice (`nodup_ids_of_follows`); and what links lead to is shown, so none is left
out (`exists_site_of_leads`).

Rebuilding looks an entry up by its number and goes through the links of one number at a time. The
order of the nodes, the order of links of different numbers and the nested view that is stored with
the lists make no difference (`rebuild_congr`).

Main statement: `rebuild_treeShaped`.
-/

namespace SyntaxGraph

namespace FlatTree

variable {t : FlatTree}

/-! ## Looking up what links lead to -/

theorem entry?_eq_some_iff (distinct : (t.nodes.map (·.id)).Nodup) {id : NodeId} {e : Entry} :
    t.entry? id = some e ↔ e ∈ t.nodes ∧ e.id = id := by
  refine ⟨of_entry?_eq_some, ?_⟩
  rintro ⟨he, rfl⟩
  exact entry?_of_mem distinct he

/-- Every link from a number leads to an entry, so the entries are those of the links in order. -/
theorem childEntries_forall₂ (distinct : (t.nodes.map (·.id)).Nodup)
    (listed : ∀ link ∈ t.links, link.target ∈ t.nodes.map (·.id)) (id : NodeId) :
    List.Forall₂ (fun link child => child.1 ∈ t.nodes ∧ child.1.id = link.target ∧
      child.2 = link.field) (t.linksFrom id) (t.childEntries id) := by
  have hall : ∀ links : List Link, (∀ link ∈ links, link ∈ t.links) →
      List.Forall₂ (fun link child => child.1 ∈ t.nodes ∧ child.1.id = link.target ∧
        child.2 = link.field) links
        (links.filterMap fun link => (t.entry? link.target).map (·, link.field)) := by
    intro links hlinks
    induction links with
    | nil => exact .nil
    | cons link rest ih =>
      rw [List.forall_mem_cons] at hlinks
      obtain ⟨e, he, hid⟩ := List.mem_map.1 (listed link hlinks.1)
      have hentry : t.entry? link.target = some e := (entry?_eq_some_iff distinct).2 ⟨he, hid⟩
      rw [List.filterMap_cons_some (b := (e, link.field)) (by rw [hentry]; rfl)]
      exact .cons ⟨he, hid, rfl⟩ (ih hlinks.2)
  exact hall _ fun link hlink => (List.mem_filter.1 hlink).1

/-! ## What grows -/

/-- What grows is the entry, held by the field. -/
theorem entry_of_grow {height : Nat} {entry : Entry} {field : Option String} {h : Hierarchy}
    (hgrow : t.grow height entry field = .ok h) : h.entry = entry ∧ h.field = field := by
  cases height with
  | zero => cases hgrow
  | succ height =>
    obtain ⟨children, -, rfl⟩ := grow_eq_ok_iff.1 hgrow
    exact ⟨rfl, rfl⟩

/-- A node of a nested view shows what the lists say of it. -/
structure Follows (t : FlatTree) (s : Site) : Prop where
  entry : s.entry ∈ t.nodes
  /-- the links to its children are its links, in order -/
  links : s.below.map Site.link? = (t.linksFrom s.entry.id).map some
  /-- a node without children has no listing of them -/
  absent : s.node.children = none ↔ s.node.childList = []

/-- The links to grown children are those that they were grown for. -/
theorem map_link?_children {depth : Nat} {source : NodeId} {height : Nat} {links : List Link}
    {entries : List (Entry × String)} {children : List Hierarchy}
    (sources : ∀ link ∈ links, link.source = source)
    (entered : List.Forall₂ (fun link child => child.1 ∈ t.nodes ∧ child.1.id = link.target ∧
      child.2 = link.field) links entries)
    (grown : List.Forall₂ (fun c child => t.grow height c.1 (some c.2) = .ok child)
      entries children) :
    (children.map fun c => Site.link? ⟨depth, some source, c⟩) = links.map some := by
  induction entered generalizing children with
  | nil =>
    cases grown
    rfl
  | @cons link c _ _ hc _ ih =>
    cases grown with
    | @cons _ child _ _ hchild hrest =>
      rw [List.forall_mem_cons] at sources
      obtain ⟨hentry, hfield⟩ := entry_of_grow hchild
      have hlink : Site.link? ⟨depth, some source, child⟩ = some link := by
        simp [Site.link?, Site.entry, hentry, hfield, hc.2.1, hc.2.2, ← sources.1]
      rw [List.map_cons, List.map_cons, hlink, ih sources.2 hrest]

/-- **What grows from a listed entry follows the lists**, at every node. -/
theorem follows_of_grow (distinct : (t.nodes.map (·.id)).Nodup)
    (listed : ∀ link ∈ t.links, link.target ∈ t.nodes.map (·.id)) {height : Nat} {entry : Entry}
    {field : Option String} {h : Hierarchy} (hentry : entry ∈ t.nodes)
    (hgrow : t.grow height entry field = .ok h) (depth : Nat) (parent : Option NodeId) :
    ∀ s ∈ Site.preorder ⟨depth, parent, h⟩, t.Follows s := by
  induction height generalizing entry field h depth parent with
  | zero => cases hgrow
  | succ height ih =>
    obtain ⟨children, hgrown, rfl⟩ := grow_eq_ok_iff.1 hgrow
    have hentered := childEntries_forall₂ distinct listed entry.id
    intro s hs
    rw [Site.preorder_eq, List.mem_cons, List.mem_flatMap] at hs
    rcases hs with rfl | ⟨c, hc, hs⟩
    · refine ⟨hentry, ?_, ?_⟩
      · rw [Site.below, List.map_map, Hierarchy.childList, getD_someUnlessEmpty]
        exact map_link?_children (fun link hlink => by simpa using (List.mem_filter.1 hlink).2)
          hentered hgrown
      · rw [Hierarchy.childList, getD_someUnlessEmpty]
        exact someUnlessEmpty_eq_none
    · obtain ⟨child, hchild, rfl⟩ := List.mem_map.1 hc
      rw [Hierarchy.childList, getD_someUnlessEmpty] at hchild
      obtain ⟨i, hi, rfl⟩ := List.getElem_of_mem hchild
      have hi' : i < (t.childEntries entry.id).length := by
        rw [hgrown.length_eq]
        exact hi
      have hi'' : i < (t.linksFrom entry.id).length := by
        rw [hentered.length_eq]
        exact hi'
      exact ih (hentered.get hi'' hi').1 (hgrown.get hi' hi) _ _ s hs

/-! ## Growth ends -/

section

variable {root : NodeId}

/-- **Growth ends** at every entry that has a chain, if there is room for the chains that are
longer. -/
theorem exists_grow (shape : t.TreeShaped) (hroot : root ∈ t.nodes.map (·.id))
    (untargeted : ∀ link ∈ t.links, link.target ≠ root) {height : Nat} {entry : Entry}
    {path : List NodeId} (chain : t.Chain root (entry.id :: path))
    (room : t.nodes.length ≤ height + path.length) (field : Option String) :
    ∃ h, t.grow height entry field = .ok h := by
  have listed : ∀ link ∈ t.links, link.target ∈ t.nodes.map (·.id) :=
    fun link hlink => (shape.listed link hlink).2
  refine (exists_grow_iff ⟨chain, chain.mem_ids listed hroot⟩).2 fun longer hlonger _ => ?_
  exact (hlonger.chain.length_le shape.targets untargeted listed hroot).trans room

/-! ## Every entry is shown once -/

/-- A child of a node that follows the lists has the number that a link from the node leads to. -/
theorem Follows.exists_link {s c : Site} (h : t.Follows s) (hc : c ∈ s.below) :
    ∃ link ∈ t.links, link.source = s.entry.id ∧ link.target = c.entry.id ∧
      c.link? = some link := by
  have hmem : c.link? ∈ (t.linksFrom s.entry.id).map some := by
    rw [← h.links]
    exact List.mem_map_of_mem hc
  obtain ⟨link, hlink, heq⟩ := List.mem_map.1 hmem
  obtain ⟨hmem, hsource⟩ : link ∈ t.links ∧ link.source = s.entry.id := by
    simpa [linksFrom] using hlink
  exact ⟨link, hmem, hsource, (Site.eq_of_link?_eq_some heq.symm).2.2, heq.symm⟩

/-- A link from a node that follows the lists leads to one of its children. -/
theorem Follows.exists_below {s : Site} (h : t.Follows s) {link : Link} (hlink : link ∈ t.links)
    (hsource : link.source = s.entry.id) : ∃ c ∈ s.below, c.link? = some link := by
  have hmem : some link ∈ s.below.map Site.link? := by
    rw [h.links]
    exact List.mem_map_of_mem (List.mem_filter.2 ⟨hlink, by simpa using hsource⟩)
  exact List.mem_map.1 hmem

theorem Follows.map_id_below {s : Site} (h : t.Follows s) :
    s.below.map (·.entry.id) = (t.linksFrom s.entry.id).map (·.target) := by
  have hlinks := congrArg (List.map (Option.map Link.target)) h.links
  rw [List.map_map, List.map_map] at hlinks
  refine List.map_injective_iff.2 (fun _ _ => Option.some.inj) ?_
  rw [List.map_map, List.map_map]
  refine Eq.trans (List.map_congr_left fun c hc => ?_) hlinks
  obtain ⟨link, -, -, htarget, hlink⟩ := h.exists_link hc
  simp only [Function.comp_apply, hlink, Option.map_some, htarget]

/-- A node of a view has a chain, which goes through the root of the view. -/
theorem exists_chain_of_follows {s : Site} {path : List NodeId}
    (follows : ∀ x ∈ s.preorder, t.Follows x) (chain : t.Chain root (s.entry.id :: path)) :
    ∀ x ∈ s.preorder, ∃ rest, t.Chain root (x.entry.id :: rest) ∧
      s.entry.id :: path <:+ x.entry.id :: rest := by
  obtain ⟨depth, parent, node⟩ := s
  induction node using Hierarchy.induct generalizing depth parent path with
  | step h ih =>
    intro x hx
    rw [Site.preorder_eq, List.forall_mem_cons] at follows
    rw [Site.preorder_eq, List.mem_cons, List.mem_flatMap] at hx
    rcases hx with rfl | ⟨c, hc, hx⟩
    · exact ⟨path, chain, List.suffix_refl _⟩
    · obtain ⟨link, hlink, hsource, htarget, -⟩ := follows.1.exists_link hc
      have hstep : t.Chain root (c.entry.id :: h.entry.id :: path) := by
        rw [← htarget, show h.entry.id = link.source from hsource.symm]
        exact .step (by rw [hsource]; exact chain) hlink
      obtain ⟨child, hchild, rfl⟩ := List.mem_map.1 hc
      obtain ⟨rest, hchain, hsuffix⟩ := ih child hchild _ _
        (fun y hy => follows.2 y (List.mem_flatMap.2 ⟨_, hc, hy⟩)) hstep x hx
      exact ⟨rest, hchain, (List.suffix_cons _ _).trans hsuffix⟩

/-- **No number is shown twice**: nodes below two children have chains through these children, and
a number has one chain. -/
theorem nodup_ids_of_follows (targets : (t.links.map (·.target)).Nodup)
    (untargeted : ∀ link ∈ t.links, link.target ≠ root) {s : Site} {path : List NodeId}
    (follows : ∀ x ∈ s.preorder, t.Follows x) (chain : t.Chain root (s.entry.id :: path)) :
    (s.preorder.map (·.entry.id)).Nodup := by
  obtain ⟨depth, parent, node⟩ := s
  induction node using Hierarchy.induct generalizing depth parent path with
  | step h ih =>
    have hfollows := follows
    rw [Site.preorder_eq, List.forall_mem_cons] at hfollows
    -- the chain of whatever is below a child, through that child
    have hbelow : ∀ c ∈ Site.below ⟨depth, parent, h⟩, ∀ x ∈ c.preorder, ∃ rest,
        t.Chain root (x.entry.id :: rest) ∧
          c.entry.id :: h.entry.id :: path <:+ x.entry.id :: rest := by
      intro c hc
      obtain ⟨link, hlink, hsource, htarget, -⟩ := hfollows.1.exists_link hc
      refine exists_chain_of_follows
        (fun y hy => hfollows.2 y (List.mem_flatMap.2 ⟨c, hc, hy⟩)) ?_
      rw [← htarget, show h.entry.id = link.source from hsource.symm]
      exact .step (by rw [hsource]; exact chain) hlink
    rw [Site.preorder_eq, List.map_cons, List.nodup_cons, List.map_flatMap, List.nodup_flatMap]
    refine ⟨fun hmem => ?_, fun c hc => ?_, ?_⟩
    · -- the node itself has no longer chain than its own
      obtain ⟨c, hc, hmem⟩ := List.mem_flatMap.1 hmem
      obtain ⟨x, hx, hid⟩ := List.mem_map.1 hmem
      obtain ⟨rest, hchain, hsuffix⟩ := hbelow c hc x hx
      rw [hid] at hchain hsuffix
      have hrest : rest = path := hchain.unique targets untargeted chain
      have hlen := hsuffix.length_le
      simp only [hrest, List.length_cons] at hlen
      omega
    · obtain ⟨child, hchild, rfl⟩ := List.mem_map.1 hc
      obtain ⟨rest, hchain, -⟩ := hbelow _ hc _ (by rw [Site.preorder_eq]; exact List.mem_cons_self)
      exact ih child hchild _ _
        (fun y hy => hfollows.2 y (List.mem_flatMap.2 ⟨_, hc, hy⟩)) hchain
    · have hids : ((Site.below ⟨depth, parent, h⟩).map (·.entry.id)).Nodup := by
        rw [hfollows.1.map_id_below]
        exact targets.sublist (List.filter_sublist.map _)
      rw [List.Nodup, List.pairwise_map] at hids
      refine hids.imp_of_mem fun {a b} ha hb hne => ?_
      -- two chains of one number are one, and so are their ends of one length
      refine List.disjoint_left.2 fun id hida hidb => ?_
      obtain ⟨x, hx, rfl⟩ := List.mem_map.1 hida
      obtain ⟨y, hy, hid⟩ := List.mem_map.1 hidb
      obtain ⟨rest, hchain, hsuffix⟩ := hbelow a ha x hx
      obtain ⟨rest', hchain', hsuffix'⟩ := hbelow b hb y hy
      rw [show y.entry.id = x.entry.id from hid] at hchain' hsuffix'
      rw [hchain'.unique targets untargeted hchain] at hsuffix'
      have heq := List.suffix_of_suffix_length_le hsuffix hsuffix' (by simp)
      exact hne (List.cons_eq_cons.1 (heq.eq_of_length (by simp))).1

end

/-- What is reached from the root of a view by links is in the view. -/
theorem exists_site_of_leads {s : Site} (follows : ∀ x ∈ s.preorder, t.Follows x) {id : NodeId}
    (h : Relation.ReflTransGen t.Leads s.entry.id id) : ∃ x ∈ s.preorder, x.entry.id = id := by
  induction h with
  | refl =>
    refine ⟨s, ?_, rfl⟩
    rw [Site.preorder_eq]
    exact List.mem_cons_self
  | tail _ hleads ih =>
    obtain ⟨x, hx, rfl⟩ := ih
    obtain ⟨link, hlink, hsource, rfl⟩ := hleads
    obtain ⟨c, hc, heq⟩ := (follows x hx).exists_below hlink hsource
    exact ⟨c, Site.mem_preorder_of_mem_below hx hc, (Site.eq_of_link?_eq_some heq).2.2.symm⟩

/-! ## Order makes no difference -/

section

variable {u : FlatTree}

theorem grow_congr (entries : ∀ id, u.entry? id = t.entry? id)
    (links : ∀ id, u.linksFrom id = t.linksFrom id) (height : Nat) (entry : Entry)
    (field : Option String) : u.grow height entry field = t.grow height entry field := by
  have hchildren : ∀ id, u.childEntries id = t.childEntries id := by
    intro id
    simp only [childEntries, links, entries]
  induction height generalizing entry field with
  | zero => rfl
  | succ height ih =>
    rw [grow_succ, grow_succ, hchildren]
    simp only [ih]

/-- Whoever has the links of every number has all links. -/
theorem mem_links_congr (links : ∀ id, u.linksFrom id = t.linksFrom id) (link : Link) :
    link ∈ u.links ↔ link ∈ t.links := by
  have hfrom : ∀ f : FlatTree, link ∈ f.links ↔ link ∈ f.linksFrom link.source := by
    intro f
    simp [linksFrom]
  rw [hfrom u, hfrom t, links]

theorem rebuild_of_length_roots (h : t.roots.length ≠ 1) : t.rebuild = .error .noUniqueRoot := by
  rw [rebuild]
  split
  · rename_i hroots
    rw [hroots] at h
    exact absurd rfl h
  · rfl

/-- **Rebuilding does not depend on the order of the nodes**, nor on that of the links of different
numbers, nor on the nested view that is stored. -/
theorem rebuild_congr (distinct : (t.nodes.map (·.id)).Nodup) (nodes : u.nodes.Perm t.nodes)
    (links : ∀ id, u.linksFrom id = t.linksFrom id) : u.rebuild = t.rebuild := by
  have distinct' : (u.nodes.map (·.id)).Nodup := (nodes.map _).nodup_iff.2 distinct
  have hentries : ∀ id, u.entry? id = t.entry? id := by
    intro id
    refine Option.ext fun e => ?_
    rw [entry?_eq_some_iff distinct', entry?_eq_some_iff distinct, nodes.mem_iff]
  have hroots : u.roots.Perm t.roots := by
    have hany : ∀ id,
        (u.links.any fun l => l.target = id) = t.links.any fun l => l.target = id := by
      intro id
      rw [Bool.eq_iff_iff, List.any_eq_true, List.any_eq_true]
      simp only [mem_links_congr links]
    rw [roots, roots]
    simp only [hany]
    exact nodes.filter _
  by_cases hlength : t.roots.length = 1
  · obtain ⟨r, hr⟩ := List.length_eq_one_iff.1 hlength
    rw [hr] at hroots
    rw [rebuild_of_roots hr, rebuild_of_roots (List.perm_singleton.1 hroots), nodes.length_eq]
    exact grow_congr hentries links _ _ _
  · have hlength' : u.roots.length ≠ 1 := by rwa [hroots.length_eq]
    rw [rebuild_of_length_roots hlength, rebuild_of_length_roots hlength']

end

/-! ## Lists of a tree -/

/-- The nested view shows what the two lists hold and no more. -/
structure Shows (t : FlatTree) (h : Hierarchy) : Prop where
  /-- every entry is shown once -/
  entries : ((h.sites 0 none).map Site.entry).Perm t.nodes
  /-- the links between the nodes of the view are those of the list -/
  links : ((h.sites 0 none).filterMap Site.link?).Perm t.links
  /-- the children of a node come in the order of its links -/
  order : ∀ s ∈ h.sites 0 none, s.below.map Site.link? = (t.linksFrom s.entry.id).map some
  root : h.field = none
  absent : ∀ s ∈ h.sites 0 none, s.node.children = none ↔ s.node.childList = []

/-- A view whose root is the root of the lists, and that follows them, shows them. -/
theorem shows_of_follows (shape : t.TreeShaped) {h : Hierarchy}
    (follows : ∀ s ∈ h.sites 0 none, t.Follows s) (field : h.field = none)
    (untargeted : ∀ link ∈ t.links, link.target ≠ h.entry.id)
    (reached : ∀ e ∈ t.nodes, Relation.ReflTransGen t.Leads h.entry.id e.id) : t.Shows h := by
  have hids : ((h.sites 0 none).map (·.entry.id)).Nodup :=
    nodup_ids_of_follows (s := ⟨0, none, h⟩) shape.targets untargeted follows .root
  have hsite : ∀ e ∈ t.nodes, ∃ s ∈ h.sites 0 none, s.entry.id = e.id :=
    fun e he => exists_site_of_leads (s := ⟨0, none, h⟩) follows (reached e he)
  refine ⟨?_, ?_, fun s hs => (follows s hs).links, field, fun s hs => (follows s hs).absent⟩
  · have hnodup : ((h.sites 0 none).map Site.entry).Nodup := by
      refine List.Nodup.of_map Entry.id ?_
      rw [List.map_map]
      exact hids
    rw [List.perm_ext_iff_of_nodup hnodup shape.distinct.of_map]
    intro e
    constructor
    · intro he
      obtain ⟨s, hs, rfl⟩ := List.mem_map.1 he
      exact (follows s hs).entry
    · intro he
      obtain ⟨s, hs, hid⟩ := hsite e he
      rw [← List.inj_on_of_nodup_map shape.distinct (follows s hs).entry he hid]
      exact List.mem_map_of_mem hs
  · have hnodup : ((h.sites 0 none).filterMap Site.link?).Nodup := by
      rw [List.Nodup, List.pairwise_map] at hids
      refine List.pairwise_filterMap.2 (hids.imp fun {a b} hne link ha link' hb heq => hne ?_)
      rw [← (Site.eq_of_link?_eq_some ha).2.2, heq, (Site.eq_of_link?_eq_some hb).2.2]
    rw [List.perm_ext_iff_of_nodup hnodup shape.targets.of_map]
    intro link
    rw [List.mem_filterMap]
    constructor
    · rintro ⟨c, hc, hlink⟩
      rcases Site.eq_or_mem_below (s := ⟨0, none, h⟩) c hc with rfl | ⟨s, hs, hbelow⟩
      · cases hlink
      · obtain ⟨link', hmem, -, -, hlink'⟩ := (follows s hs).exists_link hbelow
        rw [hlink, Option.some.injEq] at hlink'
        rw [hlink']
        exact hmem
    · intro hlink
      obtain ⟨e, he, hid⟩ := List.mem_map.1 (shape.listed link hlink).1
      obtain ⟨s, hs, hs'⟩ := hsite e he
      obtain ⟨c, hc, heq⟩ := (follows s hs).exists_below hlink (by rw [hs', hid])
      exact ⟨c, Site.mem_preorder_of_mem_below (s := ⟨0, none, h⟩) hs hc, heq⟩

/-- The root is the one entry that no link targets. -/
theorem roots_of_treeShaped (distinct : (t.nodes.map (·.id)).Nodup) {root : Entry}
    (hroot : root ∈ t.nodes) (untargeted : ∀ link ∈ t.links, link.target ≠ root.id)
    (reached : ∀ e ∈ t.nodes, Relation.ReflTransGen t.Leads root.id e.id) : t.roots = [root] := by
  have hfilter : t.roots = t.nodes.filter (·.id = root.id) := by
    refine List.filter_congr fun e he => ?_
    rw [Bool.eq_iff_iff, Bool.not_eq_true', Bool.eq_false_iff, ne_eq, List.any_eq_true,
      decide_eq_true_eq]
    constructor
    · intro hnone
      rcases (reached e he).cases_tail with heq | ⟨_, -, link, hlink, -, htarget⟩
      · exact heq
      · exact absurd ⟨link, hlink, by simpa using htarget⟩ hnone
    · rintro hid ⟨link, hlink, htarget⟩
      refine untargeted link hlink ?_
      rw [← hid]
      simpa using htarget
  rw [hfilter]
  exact filter_key_eq_singleton distinct hroot

theorem rebuild_eq_noUniqueRoot_iff (t : FlatTree) :
    t.rebuild = .error .noUniqueRoot ↔ t.roots.length ≠ 1 := by
  refine ⟨fun h hlength => ?_, rebuild_of_length_roots⟩
  obtain ⟨root, hroot⟩ := List.length_eq_one_iff.1 hlength
  rw [rebuild_of_roots hroot] at h
  cases endless_of_grow_eq_error h

end FlatTree

/-- **Rebuilding finds the tree in its lists**, in whatever order they come. If the lists are those
of a tree, the view that is rebuilt shows them, and it is rebuilt from every other order of the
nodes and of the links of different numbers as well, whatever view is stored beside them. Lists in
general are refused for their root exactly if the entries that no link targets are not one. -/
theorem rebuild_treeShaped (t : FlatTree) :
    (t.TreeShaped → ∃ h, t.rebuild = .ok h ∧ t.Shows h ∧
      ∀ u : FlatTree, u.nodes.Perm t.nodes → (∀ id, u.linksFrom id = t.linksFrom id) →
        u.rebuild = .ok h) ∧
    (t.rebuild = .error .noUniqueRoot ↔
      t.nodes.countP (fun e => t.links.all fun link => link.target != e.id) ≠ 1) := by
  constructor
  · intro shape
    obtain ⟨root, hroot, untargeted, reached⟩ := shape.root
    have hroots := FlatTree.roots_of_treeShaped shape.distinct hroot untargeted reached
    obtain ⟨h, hgrow⟩ : ∃ h, t.grow t.nodes.length root none = .ok h :=
      FlatTree.exists_grow shape (List.mem_map_of_mem hroot) untargeted .root (Nat.le_refl _) none
    have hrebuild : t.rebuild = .ok h := by
      rw [FlatTree.rebuild, hroots]
      exact hgrow
    obtain ⟨hentry, hfield⟩ := FlatTree.entry_of_grow hgrow
    have follows := FlatTree.follows_of_grow shape.distinct
      (fun link hlink => (shape.listed link hlink).2) hroot hgrow 0 none
    rw [← hentry] at untargeted reached
    refine ⟨h, hrebuild, FlatTree.shows_of_follows shape follows hfield untargeted reached, ?_⟩
    intro u nodes links
    rw [FlatTree.rebuild_congr shape.distinct nodes links, hrebuild]
  · have hcount : t.roots.length =
        t.nodes.countP (fun e => t.links.all fun link => link.target != e.id) := by
      rw [FlatTree.roots, ← List.countP_eq_length_filter]
      exact List.countP_congr fun e _ => by simp
    rw [t.rebuild_eq_noUniqueRoot_iff, hcount]

/-- The lists of a sum, neither level by level nor from the root on. -/
def scatteredLists : FlatTree where
  nodes := [⟨4, "integer", ∅⟩, ⟨9, "call", ∅⟩, ⟨1, "sum", ∅⟩, ⟨2, "name", ∅⟩]
  links := [⟨9, 2, "function"⟩, ⟨1, 9, "left"⟩, ⟨1, 4, "right"⟩]
  hierarchy := ⟨⟨0, "stale", ∅⟩, none, none⟩

theorem rebuild_treeShaped_scattered :
    scatteredLists.TreeShaped ∧
    ∃ h, scatteredLists.rebuild = .ok h ∧ scatteredLists.Shows h := by
  have shape : scatteredLists.TreeShaped := by
    refine ⟨by decide, by decide, by decide, ⟨1, "sum", ∅⟩, by simp [scatteredLists], by decide, ?_⟩
    have hleft : scatteredLists.Leads 1 9 := ⟨⟨1, 9, "left"⟩, by simp [scatteredLists], rfl, rfl⟩
    have hright : scatteredLists.Leads 1 4 :=
      ⟨⟨1, 4, "right"⟩, by simp [scatteredLists], rfl, rfl⟩
    have hname : scatteredLists.Leads 9 2 :=
      ⟨⟨9, 2, "function"⟩, by simp [scatteredLists], rfl, rfl⟩
    intro e he
    simp only [scatteredLists, List.mem_cons, List.not_mem_nil, or_false] at he
    rcases he with rfl | rfl | rfl | rfl
    · exact .single hright
    · exact .single hleft
    · exact .refl
    · exact .tail (.single hleft) hname
  obtain ⟨h, hrebuild, hshows, -⟩ := (rebuild_treeShaped scatteredLists).1 shape
  exact ⟨shape, h, hrebuild, hshows⟩

end SyntaxGraph
