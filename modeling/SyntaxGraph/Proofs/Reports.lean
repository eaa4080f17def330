import SyntaxGraph.ParseReport
import SyntaxGraph.Proofs.Sizes

/-!
# Reports are well formed

Whatever a parser answers, the report of a source counts its lines, and has a tree, the lists of
that tree and no error, or an error and neither.

The lists of a reported tree are those of a tree numbered from zero (`FlatTree.Rooted`). The
numbers in the list of nodes are those of the tree in another order (`ids_flatten_perm`), and the
links lead to all of them but the first, in the same order (`ids_flatten_eq_cons`). A link leads
to a higher number because a child stands behind its parent in pre-order (`id_lt_of_mem_below`).

Main statement: `report_wellFormed`.
-/

namespace SyntaxGraph

/-! ## Lines -/

/-- The lines of a source are what its line feeds separate. -/
theorem countLines_eq_length_splitOn (source : String) :
    countLines source = (source.toList.splitOn '\n').length := by
  rw [countLines]
  induction source.toList with
  | nil => simp
  | cons c rest ih =>
    rw [List.splitOn_cons_eq_if_modifyHead, List.count_cons]
    by_cases hc : c = '\n'
    · simp only [hc, beq_self_eq_true, if_true, List.length_cons]
      omega
    · simp only [beq_iff_eq, hc, if_false, List.length_modifyHead]
      omega

/-! ## The two outcomes -/

theorem SourceParser.report_of_ok {parser : SourceParser} {source : String} {raw : RawNode}
    (h : parser.parse source = .ok raw) :
    parser.report source = .ofTree (Numbering.node {} raw).1 (countLines source) := by
  rw [SourceParser.report, h]

theorem SourceParser.report_of_error {parser : SourceParser} {source : String} {e : ParseError}
    (h : parser.parse source = .error e) :
    parser.report source = .ofError (ParseReport.errorText e) (countLines source) := by
  rw [SourceParser.report, h]

/-! ## Numbers in the lists of a tree -/

namespace NumberedNode

/-- The list of nodes has the entries of the tree. -/
theorem nodes_flatten_perm (t : NumberedNode) : t.flatten.nodes.Perm t.toNumbered.entries := by
  rw [t.nodes_flatten, ← entries_hierarchy]
  exact (List.mergeSort_perm _ _).map _

theorem ids_flatten_perm (t : NumberedNode) :
    (t.flatten.nodes.map (·.id)).Perm t.preorderIds := by
  rw [preorderIds_eq]
  exact t.nodes_flatten_perm.map _

/-- After the root, the links lead to the nodes one after the other. -/
theorem ids_flatten_eq_cons (t : NumberedNode) :
    t.flatten.nodes.map (·.id) = t.entry.id :: t.flatten.links.map (·.target) := by
  have htargets : (t.flatten.links.map (·.target)).map some =
      ((t.hierarchy.levelOrder.flatMap Site.below).map fun c => c.entry.id).map some := by
    have h := congrArg (List.map (Option.map Link.target)) t.map_some_links
    simp only [List.map_map] at h ⊢
    refine h.trans (List.map_congr_left fun c hc => ?_)
    obtain ⟨s, hs, hc⟩ := List.mem_flatMap.1 hc
    obtain ⟨link, hlink⟩ := t.link?_of_mem_below hs hc
    simp only [Function.comp_apply, hlink, Option.map_some,
      (Site.eq_of_link?_eq_some hlink).2.2]
  have hnodes : t.flatten.nodes.map (·.id) =
      t.entry.id :: (t.hierarchy.levelOrder.flatMap Site.below).map fun c => c.entry.id := by
    rw [t.nodes_flatten, List.map_map]
    exact congrArg (List.map fun s : Site => s.entry.id) t.levelOrder_eq_cons
  rw [hnodes, List.map_injective_iff.2 (fun _ _ => Option.some.inj) htargets]

/-- A node that was numbered before its children has a lower number. -/
theorem id_lt_of_mem_below {n : Numbering} {raw : RawNode}
    (room : n.assigned.toNat + (n.node raw).1.nodeCount ≤ 2 ^ 32) {s c : Site}
    (hs : s ∈ (n.node raw).1.hierarchy.levelOrder) (hc : c ∈ s.below) :
    s.entry.id < c.entry.id := by
  have hlist : s.preorder.Sublist ((n.node raw).1.hierarchy.sites 0 none) :=
    Site.preorder_sublist_of_mem (s := ⟨0, none, (n.node raw).1.hierarchy⟩) s
      (List.mem_mergeSort.1 hs)
  have hgrow := (pairwise_id_sites room).sublist hlist
  rw [Site.preorder_eq, List.pairwise_cons] at hgrow
  refine hgrow.1 c (List.mem_flatMap.2 ⟨c, hc, ?_⟩)
  rw [Site.preorder_eq]
  exact List.mem_cons_self

theorem source_lt_target {n : Numbering} {raw : RawNode}
    (room : n.assigned.toNat + (n.node raw).1.nodeCount ≤ 2 ^ 32) :
    ∀ link ∈ (n.node raw).1.flatten.links, link.source < link.target := by
  intro link hlink
  rw [links_flatten] at hlink
  obtain ⟨s, hs, hlink⟩ := List.mem_flatMap.1 hlink
  obtain ⟨c, hc, hlink⟩ := List.mem_filterMap.1 hlink
  have hlt := id_lt_of_mem_below room hs hc
  obtain ⟨hparent, -, htarget⟩ := Site.eq_of_link?_eq_some hlink
  obtain ⟨child, -, rfl⟩ := List.mem_map.1 hc
  rw [← Option.some.inj hparent, htarget]
  exact hlt

end NumberedNode

/-! ## Lists of a tree that is numbered from zero -/

/-- The lists are those of a tree with `n` nodes: it has the numbers below `n`, each once, and its
root is zero; one link leads to every other node and none to the root; and links lead to higher
numbers. -/
structure FlatTree.Rooted (f : FlatTree) (n : Nat) : Prop where
  ids : (f.nodes.map (·.id.toNat)).Perm (List.range n)
  root : f.nodes.head?.map (·.id) = some 0
  target : ∀ id, f.links.countP (·.target = id) = if id ≠ 0 ∧ id.toNat < n then 1 else 0
  source : ∀ link ∈ f.links, link.source < link.target

section

variable {raw : RawNode} {t : NumberedNode}

theorem room_of_small (small : raw.nodeCount < 2 ^ 32) :
    ({} : Numbering).assigned.toNat + (Numbering.node {} raw).1.nodeCount ≤ 2 ^ 32 := by
  have hle := raw.length_listing_le
  rw [Numbering.nodeCount_node]
  show 0 + _ ≤ _
  omega

theorem ids_flatten_range (small : raw.nodeCount < 2 ^ 32) (ht : t = (Numbering.node {} raw).1) :
    (t.flatten.nodes.map (·.id.toNat)).Perm (List.range t.nodeCount) := by
  subst ht
  have h := (Numbering.node {} raw).1.ids_flatten_perm.map UInt32.toNat
  rw [Numbering.preorderIds_node (room_of_small small), List.map_map] at h
  rw [List.range_eq_range']
  exact h

/-- A number is listed exactly if it is below the number of nodes. -/
theorem mem_ids_of_range {n : Nat} {nodes : List Entry}
    (h : (nodes.map (·.id.toNat)).Perm (List.range n)) (id : NodeId) :
    id ∈ nodes.map (·.id) ↔ id.toNat < n := by
  rw [← List.mem_range, ← h.mem_iff]
  constructor
  · intro hid
    obtain ⟨e, he, rfl⟩ := List.mem_map.1 hid
    exact List.mem_map.2 ⟨e, he, rfl⟩
  · intro hid
    obtain ⟨e, he, heq⟩ := List.mem_map.1 hid
    exact List.mem_map.2 ⟨e, he, UInt32.toNat_inj.1 heq⟩

theorem nodup_ids_of_range {n : Nat} {nodes : List Entry}
    (h : (nodes.map (·.id.toNat)).Perm (List.range n)) : (nodes.map (·.id)).Nodup := by
  have hnat : ((nodes.map (·.id)).map UInt32.toNat).Nodup := by
    rw [List.map_map]
    exact h.nodup_iff.2 List.nodup_range
  exact List.Pairwise.of_map UInt32.toNat (fun _ _ hne heq => hne (congrArg _ heq)) hnat

/-- One link leads to every node but the first, which has none of the later numbers. -/
theorem countP_target {n : Nat} {f : FlatTree} {root : NodeId}
    (range : (f.nodes.map (·.id.toNat)).Perm (List.range n))
    (cons : f.nodes.map (·.id) = root :: f.links.map (·.target)) (id : NodeId) :
    f.links.countP (·.target = id) = if id ≠ root ∧ id.toNat < n then 1 else 0 := by
  have hnodup := nodup_ids_of_range range
  rw [cons, List.nodup_cons] at hnodup
  have hmem : id ∈ f.links.map (·.target) ↔ id ≠ root ∧ id.toNat < n := by
    rw [← mem_ids_of_range range, cons, List.mem_cons]
    constructor
    · intro h
      refine ⟨?_, Or.inr h⟩
      rintro rfl
      exact hnodup.1 h
    · rintro ⟨hne, h | h⟩
      · exact absurd h hne
      · exact h
  have hcount := hnodup.2.count (a := id)
  rw [List.count_eq_countP, List.countP_map] at hcount
  simp only [hmem] at hcount
  rw [← hcount]
  exact List.countP_congr fun link _ => by simp

theorem rooted_flatten (small : raw.nodeCount < 2 ^ 32) (ht : t = (Numbering.node {} raw).1) :
    t.flatten.Rooted t.nodeCount := by
  have hrange := ids_flatten_range small ht
  have hcons := t.ids_flatten_eq_cons
  have hroot : t.entry.id = 0 := by
    rw [ht]
    rfl
  rw [hroot] at hcons
  refine ⟨hrange, ?_, countP_target hrange hcons, ?_⟩
  · rw [← List.head?_map, hcons]
    rfl
  · rw [ht]
    exact NumberedNode.source_lt_target (room_of_small small)

end

/-! ## Reports -/

/-- A report says how many lines the source has, and it has a tree, the lists of that tree and no
error, or an error and neither. -/
structure ParseReport.WellFormed (source : String) (r : ParseReport) : Prop where
  lines : r.lines = source.toList.count '\n' + 1
  segments : r.lines = (source.toList.splitOn '\n').length
  tree : r.success = true ↔ r.tree.isSome
  flattened : r.success = true ↔ r.flattened.isSome
  error : r.success = true ↔ r.error = none
  views : ∀ tree, r.tree = some tree → ∃ flat, r.flattened = some (.tree flat) ∧
    flat.Rooted tree.nodeCount ∧ flat.hierarchy.nodeCount = tree.nodeCount

theorem wellFormed_ofTree (source : String) {raw : RawNode} (small : raw.nodeCount < 2 ^ 32) :
    (ParseReport.ofTree (Numbering.node {} raw).1 (countLines source)).WellFormed source where
  lines := rfl
  segments := countLines_eq_length_splitOn source
  tree := by simp [ParseReport.ofTree]
  flattened := by simp [ParseReport.ofTree]
  error := by simp [ParseReport.ofTree]
  views := by
    intro tree htree
    cases htree
    exact ⟨_, rfl, rooted_flatten small rfl, NumberedNode.nodeCount_hierarchy _⟩

theorem wellFormed_ofError (source error : String) :
    (ParseReport.ofError error (countLines source)).WellFormed source where
  lines := rfl
  segments := countLines_eq_length_splitOn source
  tree := by simp [ParseReport.ofError]
  flattened := by simp [ParseReport.ofError]
  error := by simp [ParseReport.ofError]
  views := by
    intro tree htree
    exact absurd htree nofun

/-- **Every report is well formed**, for any parser that answers trees of fewer than 2³² nodes. It
is a success exactly if the parser answers a tree. A fault of the source is reported with its
line, and any other failure as one of the parse. -/
theorem report_wellFormed (parser : SourceParser) (source : String)
    (small : ∀ raw, parser.parse source = .ok raw → raw.nodeCount < 2 ^ 32) :
    (parser.report source).WellFormed source ∧
    ((parser.report source).success = true ↔ ∃ raw, parser.parse source = .ok raw) ∧
    (∀ line what, parser.parse source = .error (.fault line what) →
      (parser.report source).error =
        some ("Syntax Error at line " ++ toString line.toNat ++ ": " ++ what.message)) ∧
    ∀ e, parser.parse source = .error e → (∀ line what, e ≠ .fault line what) →
      (parser.report source).error = some ("Parse Error: " ++ e.message) := by
  cases hparse : parser.parse source with
  | ok raw =>
    rw [SourceParser.report_of_ok hparse]
    refine ⟨wellFormed_ofTree source (small raw hparse), ?_, nofun, nofun⟩
    exact iff_of_true rfl ⟨raw, rfl⟩
  | error e =>
    rw [SourceParser.report_of_error hparse]
    refine ⟨wellFormed_ofError source _, ?_, ?_, ?_⟩
    · exact iff_of_false Bool.false_ne_true nofun
    · rintro line what h
      cases h
      rfl
    · rintro e' h hother
      cases h
      cases e with
      | fault line what => exact absurd rfl (hother line what)
      | _ => rfl

/-- A parser whose answer has a name twice, a list in a list and a scalar among nodes. -/
def mixedParser : SourceParser := ⟨"mixed", fun _ => .ok mixedNode⟩

theorem report_wellFormed_mixed :
    (∀ raw, mixedParser.parse "f\n" = .ok raw → raw.nodeCount < 2 ^ 32) ∧
    (mixedParser.report "f\n").WellFormed "f\n" ∧ (mixedParser.report "f\n").lines = 2 := by
  have small : ∀ raw, mixedParser.parse "f\n" = .ok raw → raw.nodeCount < 2 ^ 32 := by
    rintro raw h
    cases h
    decide
  exact ⟨small, (report_wellFormed mixedParser "f\n" small).1, by decide⟩

end SyntaxGraph
