import SyntaxGraph.Proofs.Outcomes
import SyntaxGraph.Wire.Report

/-!
# What is read

A reader accepts a record if it accepts what stands under each of its keys. One lemma for each
reader says what it reads a record as, and so also what a record must have to be read.
-/

namespace SyntaxGraph

/-! ## Attributes and entries -/

theorem Json.some_of_optional? {α : Type} {read : Json → Option α} {found : Option Json} {a : α}
    (h : Json.optional? read found = some (some a)) : ∃ j, found = some j ∧ read j = some a := by
  cases found with
  | none => cases h
  | some j =>
    refine ⟨j, rfl, ?_⟩
    cases j <;> simp_all [optional?]

theorem Attributes.valueOfJson?_eq (j : Json) :
    Attributes.valueOfJson? j = Json.optional? Scalar.ofJson? (some j) := by
  cases j <;> rfl

theorem Entry.ofRecord?_eq_some_iff {keys : RecordKeys} {j : Json} {e : Entry} :
    ofRecord? keys j = some e ↔
      (j.under? keys "id").bind Json.asWord? = some e.id ∧
      (j.under? keys "name").bind Json.asString? = some e.name ∧
      (j.under? keys "attributes").bind Attributes.ofJson? = some e.attributes := by
  obtain ⟨id, name, attributes⟩ := e
  simp only [ofRecord?, Option.bind_eq_bind, Option.pure_def, Option.bind_eq_some_iff,
    Option.some.injEq, Entry.mk.injEq]
  constructor
  · rintro ⟨i, hi, id, hid, s, hs, name, hname, a, ha, attributes, hattributes, rfl, rfl, rfl⟩
    exact ⟨⟨i, hi, hid⟩, ⟨s, hs, hname⟩, ⟨a, ha, hattributes⟩⟩
  · rintro ⟨⟨i, hi, hid⟩, ⟨s, hs, hname⟩, ⟨a, ha, hattributes⟩⟩
    exact ⟨i, hi, id, hid, s, hs, name, hname, a, ha, attributes, hattributes, rfl, rfl, rfl⟩

theorem Attributes.ofJson?_eq_some_iff {j : Json} {attributes : Attributes} :
    Attributes.ofJson? j = some attributes ↔ ∃ members entries, j = .object members ∧
      List.Forall₂ (fun m e => m.1 = e.1 ∧ Attributes.valueOfJson? m.2 = some e.2) members entries ∧
      SortedMap.ofList entries = attributes := by
  have hentry : ∀ (m : String × Json) (e : String × Option Scalar),
      (Attributes.valueOfJson? m.2).map (m.1, ·) = some e ↔
        m.1 = e.1 ∧ Attributes.valueOfJson? m.2 = some e.2 := by
    rintro ⟨key, value⟩ ⟨key', value'⟩
    rw [Option.map_eq_some_iff]
    constructor
    · rintro ⟨v, hv, heq⟩
      cases heq
      exact ⟨rfl, hv⟩
    · rintro ⟨rfl, hv⟩
      exact ⟨value', hv, rfl⟩
  cases j with
  | object members =>
    simp only [Attributes.ofJson?, Option.map_eq_some_iff, mapM_eq_some_iff, hentry]
    constructor
    · rintro ⟨entries, hentries, hmap⟩
      exact ⟨members, entries, rfl, hentries, hmap⟩
    · rintro ⟨_, entries, heq, hentries, hmap⟩
      cases heq
      exact ⟨entries, hentries, hmap⟩
  | _ => simp [Attributes.ofJson?]

/-! ## Numbered trees -/

theorem NumberedNode.ofJson?_eq_some_iff {j : Json} {n : NumberedNode} :
    NumberedNode.ofJson? j = some n ↔ Entry.ofRecord? NumberedNode.keys j = some n.entry ∧
      ∃ items, j.under? NumberedNode.keys "children" = some (.array items) ∧
        childrenOfJson? items = some n.children := by
  obtain ⟨entry, children⟩ := n
  rw [NumberedNode.ofJson?]
  split
  · rename_i e items hentry hchildren
    simp [hentry, hchildren, and_comm]
  · rename_i hother
    constructor
    · intro h
      cases h
    · rintro ⟨hentry, items, hchildren, -⟩
      exact absurd hchildren (hother _ _ hentry)

theorem childOfJson?_eq_some_iff {j : Json} {field : String} {child : Numbered} :
    childOfJson? j = some (field, child) ↔
      (j.under? childKeys "field").bind Json.asString? = some field ∧
      (j.under? childKeys "node").bind Numbered.ofJson? = some child := by
  rw [childOfJson?]
  split
  · rename_i f node hfield hnode
    simp [hfield, hnode, and_comm]
  · rename_i hother
    constructor
    · intro h
      cases h
    · rintro ⟨hfield, hnode⟩
      obtain ⟨node, hnode, -⟩ := Option.bind_eq_some_iff.1 hnode
      exact absurd hnode (hother _ _ hfield)

theorem childrenOfJson?_eq_some_iff {items : List Json} {children : List (String × Numbered)} :
    childrenOfJson? items = some children ↔
      List.Forall₂ (fun item c => childOfJson? item = some c) items children := by
  rw [← mapM_eq_some_iff]
  suffices childrenOfJson? items = items.mapM childOfJson? by rw [this]
  induction items with
  | nil => rw [childrenOfJson?, List.mapM_nil]; rfl
  | cons item rest ih =>
    rw [childrenOfJson?, List.mapM_cons, ih]
    cases childOfJson? item <;> cases rest.mapM childOfJson? <;> rfl

theorem Numbered.ofJson?_eq_some_iff {j : Json} {c : Numbered} :
    Numbered.ofJson? j = some c ↔
      (∃ n, NumberedNode.ofJson? j = some n ∧ n.toNumbered = c) ∨
      NumberedNode.ofJson? j = none ∧ ∃ s, valueLeafOfJson? j = some s ∧ .value s = c := by
  rw [Numbered.ofJson?]
  cases NumberedNode.ofJson? j <;> simp

/-! ## Flat trees -/

theorem Link.ofJson?_eq_some_iff {j : Json} {l : Link} :
    Link.ofJson? j = some l ↔
      (j.under? keys "source").bind Json.asWord? = some l.source ∧
      (j.under? keys "target").bind Json.asWord? = some l.target ∧
      (j.under? keys "field").bind Json.asString? = some l.field := by
  obtain ⟨source, target, field⟩ := l
  simp only [Link.ofJson?, Option.bind_eq_bind, Option.pure_def, Option.bind_eq_some_iff,
    Option.some.injEq, Link.mk.injEq]
  constructor
  · rintro ⟨i, hi, s, hs, j, hj, t, ht, k, hk, f, hf, rfl, rfl, rfl⟩
    exact ⟨⟨i, hi, hs⟩, ⟨j, hj, ht⟩, ⟨k, hk, hf⟩⟩
  · rintro ⟨⟨i, hi, hs⟩, ⟨j, hj, ht⟩, ⟨k, hk, hf⟩⟩
    exact ⟨i, hi, source, hs, j, hj, target, ht, k, hk, field, hf, rfl, rfl, rfl⟩

theorem Hierarchy.listOfJson?_eq_some_iff {items : List Json} {hs : List Hierarchy} :
    listOfJson? items = some hs ↔ List.Forall₂ (fun item h => ofJson? item = some h) items hs := by
  rw [← mapM_eq_some_iff]
  suffices listOfJson? items = items.mapM ofJson? by rw [this]
  induction items with
  | nil => rw [listOfJson?, List.mapM_nil]; rfl
  | cons item rest ih =>
    rw [listOfJson?, List.mapM_cons, ih]
    cases ofJson? item <;> cases rest.mapM ofJson? <;> rfl

/-- What the children of a node in the nested view are read from. -/
inductive Hierarchy.ChildrenRead : Option Json → Option (List Hierarchy) → Prop where
  | absent : ChildrenRead none none
  | null : ChildrenRead (some .null) none
  | array {items : List Json} {children : List Hierarchy} :
      listOfJson? items = some children → ChildrenRead (some (.array items)) (some children)

theorem Hierarchy.ofJson?_eq_some_iff {j : Json} {h : Hierarchy} :
    ofJson? j = some h ↔ Entry.ofRecord? keys j = some h.entry ∧
      Json.optional? Json.asString? (j.under? keys "field") = some h.field ∧
      ChildrenRead (j.under? keys "children") h.children := by
  constructor
  · intro hread
    rw [Hierarchy.ofJson?] at hread
    split at hread
    · rename_i hentry hfield hchildren
      cases hread
      exact ⟨hentry, hfield, hchildren ▸ .absent⟩
    · rename_i hentry hfield hchildren
      cases hread
      exact ⟨hentry, hfield, hchildren ▸ .null⟩
    · rename_i hentry hfield hchildren
      obtain ⟨children, hitems, rfl⟩ := Option.map_eq_some_iff.1 hread
      exact ⟨hentry, hfield, hchildren ▸ .array hitems⟩
    · cases hread
  · obtain ⟨entry, children, field⟩ := h
    rintro ⟨hentry, hfield, hchildren⟩
    rw [Hierarchy.ofJson?]
    generalize hlookup : j.under? keys "children" = found at hchildren
    cases hchildren with
    | absent => split <;> simp_all
    | null => split <;> simp_all
    | array hitems => split <;> simp_all

/-! ## Reports -/

theorem Json.items?_eq_some_iff {α : Type} {read : Json → Option α} {j : Json} {l : List α} :
    j.items? read = some l ↔
      ∃ items, j = .array items ∧ List.Forall₂ (fun item a => read item = some a) items l := by
  cases j <;> simp [Json.items?, mapM_eq_some_iff]

theorem FlatTree.ofJson?_eq_some_iff {j : Json} {t : FlatTree} :
    FlatTree.ofJson? j = some t ↔
      (j.under? keys "nodes").bind (Json.items? Entry.ofJson?) = some t.nodes ∧
      (j.under? keys "links").bind (Json.items? Link.ofJson?) = some t.links ∧
      (j.under? keys "hierarchy").bind Hierarchy.ofJson? = some t.hierarchy := by
  obtain ⟨nodes, links, hierarchy⟩ := t
  simp only [FlatTree.ofJson?, Option.bind_eq_bind, Option.pure_def, Option.bind_eq_some_iff,
    Option.some.injEq, FlatTree.mk.injEq]
  constructor
  · rintro ⟨i, hi, n, hn, j, hj, l, hl, k, hk, h, hh, rfl, rfl, rfl⟩
    exact ⟨⟨i, hi, hn⟩, ⟨j, hj, hl⟩, ⟨k, hk, hh⟩⟩
  · rintro ⟨⟨i, hi, hn⟩, ⟨j, hj, hl⟩, ⟨k, hk, hh⟩⟩
    exact ⟨i, hi, nodes, hn, j, hj, links, hl, k, hk, hierarchy, hh, rfl, rfl, rfl⟩

theorem FlatOutput.ofJson?_eq_some_iff {j : Json} {out : FlatOutput} :
    FlatOutput.ofJson? j = some out ↔
      (∃ t, FlatTree.ofJson? j = some t ∧ .tree t = out) ∨
      FlatTree.ofJson? j = none ∧ emptyOfJson? j = some out := by
  rw [FlatOutput.ofJson?]
  cases FlatTree.ofJson? j <;> simp

theorem ParseReport.ofJson?_eq_some_iff {j : Json} {r : ParseReport} :
    ParseReport.ofJson? j = some r ↔
      (j.under? keys "success").bind Json.asBool? = some r.success ∧
      Json.optional? NumberedNode.ofJson? (j.under? keys "tree") = some r.tree ∧
      Json.optional? Json.asString? (j.under? keys "error") = some r.error ∧
      (j.under? keys "lines").bind (Json.asNatBelow? UInt64.size) = some r.lines ∧
      Json.optional? FlatOutput.ofJson? (j.under? keys "flattened") = some r.flattened := by
  obtain ⟨success, tree, error, lines, flattened⟩ := r
  simp only [ParseReport.ofJson?, Option.bind_eq_bind, Option.pure_def, Option.bind_eq_some_iff,
    Option.some.injEq, ParseReport.mk.injEq]
  constructor
  · rintro ⟨i, hi, s, hs, t, ht, e, he, k, hk, l, hl, f, hf, rfl, rfl, rfl, rfl, rfl⟩
    exact ⟨⟨i, hi, hs⟩, ht, he, ⟨k, hk, hl⟩, hf⟩
  · rintro ⟨⟨i, hi, hs⟩, ht, he, ⟨k, hk, hl⟩, hf⟩
    exact ⟨i, hi, success, hs, tree, ht, error, he, k, hk, lines, hl, flattened, hf,
      rfl, rfl, rfl, rfl, rfl⟩

end SyntaxGraph
