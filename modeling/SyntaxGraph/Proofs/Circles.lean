import SyntaxGraph.Proofs.Chains
import SyntaxGraph.Proofs.Outcomes

/-!
# Circles of links

Nothing keeps the links of two lists from forming a circle below their one root. The recursion that
rebuilds the nested view then goes round the circle for ever.

`Followed` says of a chain of links that the recursion goes along it: every number on it is listed.
A growth of bounded height ends exactly if no such chain is longer than the height allows
(`exists_grow_iff`). Without a repetition no chain is longer than the list of nodes
(`Followed.length_le`), so the bound that rebuilding works with takes nothing away. A chain that
meets a number twice goes on in the same way (`Followed.exists_longer`), and no bound is enough.

Main statement: `rebuild_ends_iff`.
-/

namespace SyntaxGraph

namespace FlatTree

variable {t : FlatTree}

/-! ## Steps of a growth -/

/-- A growth that succeeds has grown a child for every entry that links lead to. -/
theorem grow_eq_ok_iff {height : Nat} {entry : Entry} {field : Option String} {h : Hierarchy} :
    t.grow (height + 1) entry field = .ok h ↔ ∃ children,
      List.Forall₂ (fun c child => t.grow height c.1 (some c.2) = .ok child)
        (t.childEntries entry.id) children ∧
      h = ⟨entry, someUnlessEmpty children, field⟩ := by
  rw [grow_succ, bind_eq_ok]
  refine exists_congr fun children => ?_
  rw [mapM_eq_ok_iff, Except.ok.injEq, eq_comm (a := h)]

/-- A growth fails only because a chain of links does not end. -/
theorem endless_of_grow_eq_error {height : Nat} {entry : Entry} {field : Option String}
    {e : RebuildError} (h : t.grow height entry field = .error e) : e = .endless := by
  induction height generalizing entry field with
  | zero =>
    cases h
    rfl
  | succ height ih =>
    rw [grow_succ, bind_eq_error] at h
    rcases h with h | ⟨children, -, h⟩
    · obtain ⟨c, -, hc⟩ := exists_of_mapM_eq_error h
      exact ih hc
    · cases h

theorem exists_grow_succ_iff {height : Nat} {entry : Entry} {field : Option String} :
    (∃ h, t.grow (height + 1) entry field = .ok h) ↔
      ∀ c ∈ t.childEntries entry.id, ∃ child, t.grow height c.1 (some c.2) = .ok child := by
  rw [← exists_mapM_eq_ok_iff]
  simp only [grow_eq_ok_iff, mapM_eq_ok_iff]
  constructor
  · rintro ⟨_, children, hgrown, -⟩
    exact ⟨children, hgrown⟩
  · rintro ⟨children, hgrown⟩
    exact ⟨_, children, hgrown, rfl⟩

/-- What grows does not depend on the room that is left. -/
theorem grow_of_le {height height' : Nat} (hle : height ≤ height') {entry : Entry}
    {field : Option String} {h : Hierarchy} (hgrow : t.grow height entry field = .ok h) :
    t.grow height' entry field = .ok h := by
  induction height generalizing height' entry field h with
  | zero => cases hgrow
  | succ height ih =>
    obtain ⟨height', rfl⟩ := Nat.exists_eq_add_of_lt (Nat.lt_of_succ_le hle)
    obtain ⟨children, hgrown, rfl⟩ := grow_eq_ok_iff.1 hgrow
    exact grow_eq_ok_iff.2 ⟨children, hgrown.imp fun _ _ => ih (by omega), rfl⟩

theorem rebuild_of_roots {root : Entry} (h : t.roots = [root]) :
    t.rebuild = t.grow t.nodes.length root none := by
  rw [rebuild, h]

/-! ## Entries by number -/

theorem of_entry?_eq_some {id : NodeId} {e : Entry} (h : t.entry? id = some e) :
    e ∈ t.nodes ∧ e.id = id := by
  have hmem : e ∈ t.nodes.filter (·.id = id) := List.mem_of_getLast? h
  simpa using hmem

theorem exists_entry?_iff {id : NodeId} :
    (∃ e, t.entry? id = some e) ↔ id ∈ t.nodes.map (·.id) := by
  constructor
  · rintro ⟨e, he⟩
    obtain ⟨hmem, rfl⟩ := of_entry?_eq_some he
    exact List.mem_map_of_mem hmem
  · intro hid
    obtain ⟨e, he, rfl⟩ := List.mem_map.1 hid
    have hne : t.nodes.filter (·.id = e.id) ≠ [] :=
      List.ne_nil_of_mem (List.mem_filter.2 ⟨he, by simp⟩)
    exact ⟨_, List.getLast?_eq_some_getLast hne⟩

/-- The children of a number are the listed numbers that its links lead to. -/
theorem exists_childEntries_iff {id next : NodeId} :
    (∃ c ∈ t.childEntries id, c.1.id = next) ↔ t.Leads id next ∧ next ∈ t.nodes.map (·.id) := by
  simp only [childEntries, linksFrom, List.mem_filterMap, List.mem_filter, decide_eq_true_eq]
  constructor
  · rintro ⟨c, ⟨link, ⟨hlink, hsource⟩, hc⟩, rfl⟩
    obtain ⟨e, he, rfl⟩ := Option.map_eq_some_iff.1 hc
    obtain ⟨hmem, hid⟩ := of_entry?_eq_some he
    exact ⟨⟨link, hlink, hsource, hid.symm⟩, List.mem_map_of_mem hmem⟩
  · rintro ⟨⟨link, hlink, hsource, rfl⟩, hnext⟩
    obtain ⟨e, he⟩ := exists_entry?_iff.2 hnext
    exact ⟨(e, link.field), ⟨link, ⟨hlink, hsource⟩, by rw [he]; rfl⟩, (of_entry?_eq_some he).2⟩

/-! ## Chains that are followed -/

/-- A chain of links that rebuilding goes along; links to unlisted numbers are passed over. -/
structure Followed (t : FlatTree) (root : NodeId) (path : List NodeId) : Prop where
  chain : t.Chain root path
  listed : ∀ id ∈ path, id ∈ t.nodes.map (·.id)

/-- A list without repetitions, or with an end that starts with a number that it meets again. -/
theorem exists_suffix_of_not_nodup {path : List NodeId} (h : ¬ path.Nodup) :
    ∃ id between before, id :: between ++ id :: before <:+ path := by
  induction path with
  | nil => exact absurd List.nodup_nil h
  | cons id path ih =>
    by_cases hmem : id ∈ path
    · obtain ⟨between, before, rfl⟩ := List.append_of_mem hmem
      exact ⟨id, between, before, List.suffix_refl _⟩
    · obtain ⟨other, between, before, hsuffix⟩ :=
        ih fun hpath => h (List.nodup_cons.2 ⟨hmem, hpath⟩)
      exact ⟨other, between, before, hsuffix.trans (List.suffix_cons _ _)⟩

namespace Followed

variable {root id next : NodeId} {path : List NodeId}

theorem of_suffix {whole : List NodeId} (h : t.Followed root whole)
    (hsuffix : id :: path <:+ whole) : t.Followed root (id :: path) :=
  ⟨h.chain.of_suffix hsuffix, fun other hother => h.listed other (hsuffix.subset hother)⟩

theorem cons_cons_iff : t.Followed root (next :: id :: path) ↔
    t.Followed root (id :: path) ∧ ∃ c ∈ t.childEntries id, c.1.id = next := by
  rw [exists_childEntries_iff]
  constructor
  · rintro ⟨chain, listed⟩
    obtain ⟨chain, hleads⟩ := Chain.cons_cons_iff.1 chain
    rw [List.forall_mem_cons] at listed
    exact ⟨⟨chain, listed.2⟩, hleads, listed.1⟩
  · rintro ⟨⟨chain, listed⟩, hleads, hnext⟩
    exact ⟨Chain.cons_cons_iff.2 ⟨chain, hleads⟩, List.forall_mem_cons.2 ⟨hnext, listed⟩⟩

theorem length_le (h : t.Followed root path) (nodup : path.Nodup) :
    path.length ≤ t.nodes.length := by
  have hle := (nodup.subperm h.listed).length_le
  rwa [List.length_map] at hle

/-- **A chain that meets a number twice is part of chains of every length**: what leads from the
first meeting to the second leads on from there. -/
theorem exists_longer (h : t.Followed root path) (repeats : ¬ path.Nodup) (length : Nat) :
    ∃ longer, t.Followed root longer ∧ length ≤ longer.length := by
  obtain ⟨id, between, before, hsuffix⟩ := exists_suffix_of_not_nodup repeats
  have hround : t.Followed root (id :: between ++ id :: before) := h.of_suffix hsuffix
  suffices hrounds : ∃ rest, t.Followed root (id :: rest) ∧ length ≤ rest.length by
    obtain ⟨rest, hrest, hlength⟩ := hrounds
    exact ⟨_, hrest, Nat.le_succ_of_le hlength⟩
  induction length with
  | zero => exact ⟨_, hround, Nat.zero_le _⟩
  | succ length ih =>
    -- one more round
    obtain ⟨rest, hrest, hlength⟩ := ih
    refine ⟨between ++ id :: rest, ⟨hround.chain.splice hrest.chain, fun other hother => ?_⟩, ?_⟩
    · rcases List.mem_append.1 (show other ∈ id :: between ++ id :: rest from hother) with hin | hin
      · exact hround.listed other (List.mem_append_left _ hin)
      · exact hrest.listed other hin
    · rw [List.length_append, List.length_cons]
      omega

end Followed

/-! ## How high a growth is -/

/-- **A growth ends exactly if no chain through its entry is longer than its height allows.** -/
theorem exists_grow_iff {root : NodeId} {height : Nat} {entry : Entry} {field : Option String}
    {path : List NodeId} (followed : t.Followed root (entry.id :: path)) :
    (∃ h, t.grow height entry field = .ok h) ↔
      ∀ longer, t.Followed root longer → entry.id :: path <:+ longer →
        longer.length ≤ height + path.length := by
  induction height generalizing entry field path with
  | zero =>
    refine iff_of_false (fun ⟨_, hgrow⟩ => nomatch hgrow) fun room => ?_
    have hself := room _ followed (List.suffix_refl _)
    rw [List.length_cons] at hself
    omega
  | succ height ih =>
    rw [exists_grow_succ_iff]
    constructor
    · intro hchildren longer hlonger hsuffix
      obtain ⟨later, rfl⟩ := hsuffix
      rcases List.eq_nil_or_concat later with rfl | ⟨later, next, rfl⟩
      · rw [List.nil_append, List.length_cons]
        omega
      · have hnext : next :: entry.id :: path <:+ later.concat next ++ entry.id :: path :=
          ⟨later, by simp⟩
        obtain ⟨c, hc, rfl⟩ := (Followed.cons_cons_iff.1 (hlonger.of_suffix hnext)).2
        have hbound := (ih (hlonger.of_suffix hnext)).1 (hchildren c hc) _ hlonger hnext
        rw [List.length_cons] at hbound
        omega
    · intro room c hc
      have hfollowed := Followed.cons_cons_iff.2 ⟨followed, c, hc, rfl⟩
      refine (ih hfollowed).2 fun longer hlonger hsuffix => ?_
      have hbound := room longer hlonger ((List.suffix_cons _ _).trans hsuffix)
      rw [List.length_cons]
      omega

section

variable {root : Entry}

theorem exists_grow_root_iff (hroot : root ∈ t.nodes) {height : Nat} :
    (∃ h, t.grow height root none = .ok h) ↔
      ∀ path, t.Followed root.id path → path.length ≤ height := by
  have followed : t.Followed root.id [root.id] :=
    ⟨.root, fun id hid => List.mem_singleton.1 hid ▸ List.mem_map_of_mem hroot⟩
  rw [exists_grow_iff followed]
  exact forall₂_congr fun path hpath => ⟨fun h => h hpath.chain.root_suffix, fun h _ => h⟩

/-- No bound is enough for a chain that meets a number twice. -/
theorem nodup_of_grow (hroot : root ∈ t.nodes) {height : Nat} {h : Hierarchy}
    (hgrow : t.grow height root none = .ok h) {path : List NodeId}
    (followed : t.Followed root.id path) : path.Nodup := by
  by_contra repeats
  obtain ⟨longer, hlonger, hlength⟩ := followed.exists_longer repeats (height + 1)
  have hle := (exists_grow_root_iff hroot).1 ⟨h, hgrow⟩ longer hlonger
  omega

theorem exists_grow_of_nodup (hroot : root ∈ t.nodes)
    (nodup : ∀ path, t.Followed root.id path → path.Nodup) :
    ∃ h, t.grow t.nodes.length root none = .ok h :=
  (exists_grow_root_iff hroot).2 fun path hpath => hpath.length_le (nodup path hpath)

theorem mem_nodes_of_roots (h : t.roots = [root]) : root ∈ t.nodes := by
  have hmem : root ∈ t.roots := h ▸ List.mem_singleton_self root
  exact (List.mem_filter.1 hmem).1

end

end FlatTree

/-- **Rebuilding ends exactly if no number occurs twice on a chain of links that it follows** from
the one root of the lists. If one does, it is endless, whatever height is allowed; and if none does,
the height that it allows is enough, so it gives what the recursion gives without a bound. -/
theorem rebuild_ends_iff (t : FlatTree) (root : Entry) (hroot : t.roots = [root]) :
    ((∃ h, t.rebuild = .ok h) ↔ ∀ path, t.Followed root.id path → path.Nodup) ∧
    (t.rebuild = .error .endless ↔ ∃ path, t.Followed root.id path ∧ ¬ path.Nodup) ∧
    ∀ h, t.rebuild = .ok h ↔ ∃ height, t.grow height root none = .ok h := by
  have hmem := FlatTree.mem_nodes_of_roots hroot
  rw [FlatTree.rebuild_of_roots hroot]
  have hends : (∃ h, t.grow t.nodes.length root none = .ok h) ↔
      ∀ path, t.Followed root.id path → path.Nodup :=
    ⟨fun ⟨_, hgrow⟩ _ => FlatTree.nodup_of_grow hmem hgrow, FlatTree.exists_grow_of_nodup hmem⟩
  refine ⟨hends, ?_, fun h => ⟨fun hgrow => ⟨_, hgrow⟩, ?_⟩⟩
  · have hnot : (∃ path, t.Followed root.id path ∧ ¬ path.Nodup) ↔
        ¬ ∃ h, t.grow t.nodes.length root none = .ok h := by
      rw [hends]
      simp only [not_forall, exists_prop]
    rw [hnot]
    cases hgrow : t.grow t.nodes.length root none with
    | ok h => exact iff_of_false nofun fun hno => hno ⟨h, rfl⟩
    | error e =>
      rw [FlatTree.endless_of_grow_eq_error hgrow]
      exact iff_of_true rfl nofun
  · rintro ⟨height, hgrow⟩
    obtain ⟨h', hgrow'⟩ := FlatTree.exists_grow_of_nodup hmem fun _ =>
      FlatTree.nodup_of_grow hmem hgrow
    have hmax := FlatTree.grow_of_le (Nat.le_max_left height t.nodes.length) hgrow
    rw [FlatTree.grow_of_le (Nat.le_max_right height t.nodes.length) hgrow'] at hmax
    rw [hgrow', hmax]

def diamondLists : FlatTree where
  nodes := [⟨0, "root", ∅⟩, ⟨1, "left", ∅⟩, ⟨2, "right", ∅⟩, ⟨3, "shared", ∅⟩]
  links := [⟨0, 1, "first"⟩, ⟨0, 2, "second"⟩, ⟨1, 3, "next"⟩, ⟨2, 3, "next"⟩, ⟨3, 9, "lost"⟩]
  hierarchy := ⟨⟨0, "root", ∅⟩, none, none⟩

theorem rebuild_ends_iff_diamond :
    diamondLists.roots = [⟨0, "root", ∅⟩] ∧ (∃ h, diamondLists.rebuild = .ok h) ∧
    ∀ path, diamondLists.Followed 0 path → path.Nodup := by
  have hroots : diamondLists.roots = [⟨0, "root", ∅⟩] := rfl
  have hrebuild : ∃ h, diamondLists.rebuild = .ok h := ⟨_, rfl⟩
  exact ⟨hroots, hrebuild, (rebuild_ends_iff diamondLists _ hroots).1.1 hrebuild⟩

/-- A root with a circle of two nodes below it. -/
def circleLists : FlatTree where
  nodes := [⟨0, "root", ∅⟩, ⟨1, "left", ∅⟩, ⟨2, "right", ∅⟩]
  links := [⟨0, 1, "first"⟩, ⟨1, 2, "next"⟩, ⟨2, 1, "back"⟩]
  hierarchy := ⟨⟨0, "root", ∅⟩, none, none⟩

/-- A root that is the only one does not keep the links below it from forming a circle, and then no
height is enough. -/
theorem grow_circleLists :
    circleLists.roots = [⟨0, "root", ∅⟩] ∧ circleLists.Followed 0 [1, 2, 1, 0] ∧
    ¬ [(1 : NodeId), 2, 1, 0].Nodup ∧
    ∀ height, circleLists.grow height ⟨0, "root", ∅⟩ none = .error .endless := by
  have hfirst : (⟨0, 1, "first"⟩ : Link) ∈ circleLists.links := by simp [circleLists]
  have hnext : (⟨1, 2, "next"⟩ : Link) ∈ circleLists.links := by simp [circleLists]
  have hback : (⟨2, 1, "back"⟩ : Link) ∈ circleLists.links := by simp [circleLists]
  have hchain : circleLists.Chain 0 [1, 2, 1, 0] := .step (.step (.step .root hfirst) hnext) hback
  have followed : circleLists.Followed 0 [1, 2, 1, 0] := ⟨hchain, by simp [circleLists]⟩
  have repeats : ¬ [(1 : NodeId), 2, 1, 0].Nodup := by decide
  refine ⟨rfl, followed, repeats, fun height => ?_⟩
  cases hgrow : circleLists.grow height ⟨0, "root", ∅⟩ none with
  | ok h => exact absurd (FlatTree.nodup_of_grow List.mem_cons_self hgrow followed) repeats
  | error e => rw [FlatTree.endless_of_grow_eq_error hgrow]

end SyntaxGraph
