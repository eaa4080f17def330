import Mathlib.Data.List.Perm.Subperm
import Mathlib.Logic.Relation
import SyntaxGraph.Proofs.Rebuilding

/-!
# Chains of links from a root

`FlatTree.TreeShaped` says of two lists that they are those of a tree, in whatever order they come:
links connect listed numbers, no two lead to one number, and every entry is reached from one that
no link leads to.

A `Chain` is the path on which a number is reached, its last number first. Where no two links lead
to one number, a chain can be followed backwards in one way only, so a number has one chain
(`Chain.unique`) and occurs in it once (`Chain.nodup`). A chain is then no longer than the list of
nodes (`Chain.length_le`), which is the bound that rebuilding works with.
-/

namespace SyntaxGraph

namespace FlatTree

/-- A link leads from one number to the other. -/
def Leads (t : FlatTree) (source target : NodeId) : Prop :=
  ∃ link ∈ t.links, link.source = source ∧ link.target = target

/-- The two lists are those of a tree. -/
structure TreeShaped (t : FlatTree) : Prop where
  distinct : (t.nodes.map (·.id)).Nodup
  /-- links connect listed numbers -/
  listed : ∀ link ∈ t.links, link.source ∈ t.nodes.map (·.id) ∧ link.target ∈ t.nodes.map (·.id)
  /-- no two links share a target -/
  targets : (t.links.map (·.target)).Nodup
  /-- every entry is reached from one that no link targets -/
  root : ∃ root ∈ t.nodes, (∀ link ∈ t.links, link.target ≠ root.id) ∧
    ∀ e ∈ t.nodes, Relation.ReflTransGen t.Leads root.id e.id

/-- A path of links from a root, its last number first. -/
inductive Chain (t : FlatTree) (root : NodeId) : List NodeId → Prop
  | root : Chain t root [root]
  | step {path : List NodeId} {link : Link} (chain : Chain t root (link.source :: path))
      (mem : link ∈ t.links) : Chain t root (link.target :: link.source :: path)

namespace Chain

variable {t : FlatTree} {root id : NodeId} {path other : List NodeId}

/-- A number is reached on one path only. -/
theorem unique (targets : (t.links.map (·.target)).Nodup)
    (untargeted : ∀ link ∈ t.links, link.target ≠ root) (h : t.Chain root (id :: path))
    (h' : t.Chain root (id :: other)) : path = other := by
  generalize hwhole : id :: path = whole at h
  induction h generalizing id path other with
  | root =>
    obtain ⟨rfl, rfl⟩ := List.cons_eq_cons.1 hwhole
    cases h' with
    | root => rfl
    | step _ mem => exact absurd rfl (untargeted _ mem)
  | @step before link _ mem ih =>
    obtain ⟨rfl, rfl⟩ := List.cons_eq_cons.1 hwhole
    generalize htarget : link.target = target at h'
    cases h' with
    | root => exact absurd htarget (untargeted _ mem)
    | @step before' link' chain' mem' =>
      -- both paths end with the one link to the number
      obtain rfl : link = link' := List.inj_on_of_nodup_map targets mem mem' htarget
      rw [ih chain' rfl]

/-- What is left of a path when numbers are taken off its end is a path. -/
theorem of_suffix (h : t.Chain root path) (hsuffix : id :: other <:+ path) :
    t.Chain root (id :: other) := by
  induction h with
  | root =>
    rw [List.suffix_cons_iff] at hsuffix
    rcases hsuffix with heq | hnil
    · rw [heq]
      exact .root
    · exact absurd (List.suffix_nil.1 hnil) (List.cons_ne_nil _ _)
  | step chain mem ih =>
    rw [List.suffix_cons_iff] at hsuffix
    rcases hsuffix with heq | hsuffix
    · rw [heq]
      exact .step chain mem
    · exact ih hsuffix

theorem cons_cons_iff {next : NodeId} :
    t.Chain root (next :: id :: path) ↔ t.Chain root (id :: path) ∧ t.Leads id next := by
  constructor
  · intro h
    cases h with
    | step chain mem => exact ⟨chain, _, mem, rfl, rfl⟩
  · rintro ⟨chain, link, mem, rfl, rfl⟩
    exact .step chain mem

/-- What leads on from a number leads on from every path to it. -/
theorem splice {later : List NodeId} (h : t.Chain root (later ++ id :: path))
    (h' : t.Chain root (id :: other)) : t.Chain root (later ++ id :: other) := by
  induction later with
  | nil => exact h'
  | cons last later ih =>
    cases later with
    | nil => exact cons_cons_iff.2 ⟨h', (cons_cons_iff.1 h).2⟩
    | cons next later =>
      obtain ⟨hbefore, hleads⟩ := cons_cons_iff.1 h
      exact cons_cons_iff.2 ⟨ih hbefore, hleads⟩

theorem root_suffix (h : t.Chain root path) : [root] <:+ path := by
  induction h with
  | root => exact List.suffix_refl _
  | step _ _ ih => exact ih.trans (List.suffix_cons _ _)

theorem nodup (targets : (t.links.map (·.target)).Nodup)
    (untargeted : ∀ link ∈ t.links, link.target ≠ root) (h : t.Chain root path) :
    path.Nodup := by
  induction h with
  | root => exact List.nodup_singleton _
  | @step path link chain mem ih =>
    refine List.nodup_cons.2 ⟨fun htarget => ?_, ih⟩
    -- the path to the earlier occurrence would be longer than itself
    obtain ⟨front, back, hsplit⟩ := List.append_of_mem htarget
    have hsuffix : link.target :: back <:+ link.source :: path := ⟨front, hsplit.symm⟩
    have heq : link.source :: path = back :=
      unique targets untargeted (.step chain mem) (chain.of_suffix hsuffix)
    have hlen := congrArg List.length hsplit
    rw [heq, List.length_append, List.length_cons] at hlen
    omega

theorem mem_ids (listed : ∀ link ∈ t.links, link.target ∈ t.nodes.map (·.id))
    (hroot : root ∈ t.nodes.map (·.id)) (h : t.Chain root path) :
    ∀ id ∈ path, id ∈ t.nodes.map (·.id) := by
  induction h with
  | root => simpa using hroot
  | step _ mem ih => exact List.forall_mem_cons.2 ⟨listed _ mem, ih⟩

theorem length_le (targets : (t.links.map (·.target)).Nodup)
    (untargeted : ∀ link ∈ t.links, link.target ≠ root)
    (listed : ∀ link ∈ t.links, link.target ∈ t.nodes.map (·.id))
    (hroot : root ∈ t.nodes.map (·.id)) (h : t.Chain root path) :
    path.length ≤ t.nodes.length := by
  have hsub : path ⊆ t.nodes.map (·.id) := h.mem_ids listed hroot
  have hle := ((h.nodup targets untargeted).subperm hsub).length_le
  rwa [List.length_map] at hle

end Chain

end FlatTree

end SyntaxGraph
