import SyntaxGraph.Proofs.Finiteness
import SyntaxGraph.Proofs.Rearranging

/-!
# Reports read back

A report is read back from its JSON form, as long as its floats are finite: a float that is not is
written as `null`. Each step writes one kind of value and reads it again, in any arrangement of the
members; where a reader tries one form before another, what was written in the second form has no
key that the first form asks for.

Main statement: `report_reads_back`.
-/

namespace SyntaxGraph

/-! ## Writing and reading back -/

section

variable {f : Json → Json}

theorem Json.asWord?_int (w : UInt32) : Json.asWord? (.int w.toNat) = some w := by
  have hlt : (w.toNat : Int) < UInt32.size := by exact_mod_cast w.toNat_lt
  rw [asWord?, Json.int, asNatBelow?, if_pos ⟨Int.natCast_nonneg _, hlt⟩, Int.toNat_natCast,
    Option.map_some, UInt32.ofNat_toNat]

theorem Scalar.ofJson?_toJson {s : Scalar} (finite : s.isFinite = true) :
    Scalar.ofJson? s.toJson = some s := by
  cases s with
  | int i =>
    have hrange : Int64.minValue.toInt ≤ i.toInt ∧ i.toInt ≤ Int64.maxValue.toInt :=
      ⟨Int64.minValue_le_toInt i, Int64.toInt_le i⟩
    rw [toJson, Json.int, ofJson?, if_pos hrange, Int64.ofInt_toInt]
  | float x =>
    rw [toJson, if_pos (show x.isFinite = true from finite), ofJson?]
  | _ => rfl

/-- A scalar is written as a value without members. -/
theorem Json.Rearranges.scalar (hf : Json.Rearranges f) (s : Scalar) : f s.toJson = s.toJson := by
  cases s with
  | bool b => exact hf.bool b
  | int i => exact hf.number _
  | float x =>
    rw [Scalar.toJson]
    split
    · exact hf.number _
    · exact hf.null
  | str t => exact hf.string t

/-- What is written as `null` when it is absent is read back, if `null` is nothing else. -/
theorem Json.optional?_orNull {α : Type} {read : Json → Option α} {write : α → Json}
    (hf : Json.Rearranges f) (hnull : read .null = none) {value : Option α}
    (h : ∀ a ∈ value, read (f (write a)) = some a) :
    Json.optional? read (some (f (Json.orNull (value.map write)))) = some value := by
  cases value with
  | none =>
    rw [Option.map_none, Json.orNull, hf.null]
    rfl
  | some a =>
    have ha := h a rfl
    have hne : f (write a) ≠ .null := by
      intro heq
      rw [heq, hnull] at ha
      cases ha
    rw [Option.map_some, Json.orNull, Json.optional?.eq_3 _ _ hne, ha, Option.map_some]

theorem Attributes.ofJson?_rearranged (hf : Json.Rearranges f) {attributes : Attributes}
    (finite : AllFinite attributes.scalars) :
    Attributes.ofJson? (f attributes.toJson) = some attributes := by
  have hkeys : ((attributes.entries.map fun e =>
      (e.1, Json.orNull (e.2.map Scalar.toJson))).map (·.1)).Nodup := by
    rw [List.map_map]
    exact attributes.nodup_keys
  obtain ⟨members, hperm, hobject⟩ := hf.object _ hkeys
  rw [← congrFun₂ (List.eq_map_comp_perm _)] at hperm
  obtain ⟨entries, rfl, hperm⟩ := hperm
  rw [toJson, hobject, Attributes.ofJson?_eq_some_iff]
  refine ⟨_, entries, rfl, ?_, SortedMap.ofList_eq_of_perm hperm⟩
  rw [List.map_map, List.forall₂_map_left_iff, List.forall₂_same]
  intro e he
  refine ⟨rfl, ?_⟩
  show Attributes.valueOfJson? (f (Json.orNull (e.2.map Scalar.toJson))) = some e.2
  rw [Attributes.valueOfJson?_eq]
  refine Json.optional?_orNull hf rfl fun s hs => ?_
  rw [hf.scalar]
  exact Scalar.ofJson?_toJson (finite s (List.mem_filterMap.2 ⟨e, hperm.mem_iff.1 he, hs⟩))

/-- An entry is read back from every object that has its members. -/
theorem Entry.ofRecord?_rearranged (hf : Json.Rearranges f) {e : Entry}
    (finite : AllFinite (Attributes.scalars e.attributes)) {keys : RecordKeys} {j : Json}
    (hid : j.under? keys "id" = some (f (.int e.id.toNat)))
    (hname : j.under? keys "name" = some (f (.string e.name)))
    (hattributes : j.under? keys "attributes" = some (f (Attributes.toJson e.attributes))) :
    ofRecord? keys j = some e := by
  rw [Entry.ofRecord?_eq_some_iff, hid, hname, hattributes, Json.int, hf.number, hf.string,
    Option.bind_some, Option.bind_some, Option.bind_some]
  exact ⟨Json.asWord?_int e.id, rfl, Attributes.ofJson?_rearranged hf finite⟩

mutual

theorem Numbered.ofJson?_rearranged (hf : Json.Rearranges f) :
    ∀ c : Numbered, AllFinite c.scalars → Numbered.ofJson? (f c.toJson) = some c
  | .node entry children, finite => by
    rw [Numbered.scalars, allFinite_append] at finite
    have hunder := hf.under? (entry.toMembers ++ [("children", .array (childrenToJson children))])
      (by simp [Entry.toMembers]) NumberedNode.keys
    rw [Numbered.toJson, Numbered.ofJson?_eq_some_iff]
    refine .inl ⟨⟨entry, children⟩, NumberedNode.ofJson?_eq_some_iff.2 ⟨?_, ?_⟩, rfl⟩
    · exact Entry.ofRecord?_rearranged hf finite.1 (hunder _) (hunder _) (hunder _)
    · refine ⟨(childrenToJson children).map f, ?_, childrenOfJson?_rearranged hf children finite.2⟩
      rw [hunder, ← hf.array]
      rfl
  | .value s, finite => by
    have hunder := hf.under? [("type", .string "value"), ("value", s.toJson)] (by simp)
    rw [Numbered.toJson, Numbered.ofJson?_eq_some_iff]
    refine .inr ⟨?_, s, ?_, rfl⟩
    · -- a value leaf has no number, so it is not taken for a node
      rw [Option.eq_none_iff_forall_ne_some]
      intro n hn
      have hid := (Entry.ofRecord?_eq_some_iff.1 (NumberedNode.ofJson?_eq_some_iff.1 hn).1).1
      rw [hunder] at hid
      cases hid
    · rw [valueLeafOfJson?, hunder]
      show Scalar.ofJson? (f s.toJson) = _
      rw [hf.scalar, Scalar.ofJson?_toJson (finite s (List.mem_singleton_self s))]

theorem childrenOfJson?_rearranged (hf : Json.Rearranges f) :
    ∀ children : List (String × Numbered), AllFinite (Numbered.scalarsList children) →
      childrenOfJson? ((childrenToJson children).map f) = some children
  | [], _ => by
    rw [childrenToJson, List.map_nil, childrenOfJson?]
  | (field, child) :: rest, finite => by
    rw [Numbered.scalarsList, allFinite_append] at finite
    have hunder := hf.under? [("field", .string field), ("node", child.toJson)] (by simp) childKeys
    have hchild : childOfJson? (f (.object [("field", .string field), ("node", child.toJson)])) =
        some (field, child) := by
      rw [childOfJson?_eq_some_iff, hunder, hunder]
      refine ⟨?_, Numbered.ofJson?_rearranged hf child finite.1⟩
      show Json.asString? (f (.string field)) = _
      rw [hf.string]
      rfl
    rw [childrenToJson, List.map_cons, childrenOfJson?, hchild,
      childrenOfJson?_rearranged hf rest finite.2]

end

theorem NumberedNode.ofJson?_rearranged (hf : Json.Rearranges f) {n : NumberedNode}
    (finite : AllFinite n.toNumbered.scalars) :
    NumberedNode.ofJson? (f n.toJson) = some n := by
  rcases Numbered.ofJson?_eq_some_iff.1 (Numbered.ofJson?_rearranged hf n.toNumbered finite) with
    ⟨m, hm, heq⟩ | ⟨-, s, -, heq⟩
  · obtain ⟨entry, children⟩ := n
    obtain ⟨entry', children'⟩ := m
    cases heq
    exact hm
  · cases heq

/-- A text that may be absent, under a key that is omitted or `null` when it is. -/
theorem Json.optional?_string (hf : Json.Rearranges f) (s : Option String) :
    Json.optional? Json.asString? ((s.map .string).map f) = some s := by
  cases s with
  | none => rfl
  | some s =>
    rw [Option.map_some, Option.map_some, hf.string]
    rfl

namespace Hierarchy

/-- The members of a node of the nested view; `children` and `field` may be missing. -/
def toMembers (h : Hierarchy) : List (String × Json) :=
  h.entry.toMembers ++ optionalMember "children" (h.children.map (.array <| listToJson ·)) ++
    optionalMember "field" (h.field.map .string)

theorem toJson_eq (h : Hierarchy) : h.toJson = .object h.toMembers := by
  obtain ⟨entry, children, field⟩ := h
  cases children with
  | none => simp [toJson, toMembers, optionalMember]
  | some children => simp [toJson, toMembers, optionalMember]

theorem nodup_toMembers (h : Hierarchy) : (h.toMembers.map (·.1)).Nodup := by
  obtain ⟨entry, children, field⟩ := h
  cases children <;> cases field <;> simp [toMembers, Entry.toMembers, optionalMember]

theorem lookup_toMembers (h : Hierarchy) :
    h.toMembers.lookup "children" = h.children.map (.array <| listToJson ·) ∧
      h.toMembers.lookup "field" = h.field.map .string := by
  obtain ⟨entry, children, field⟩ := h
  cases children <;> cases field <;> exact ⟨rfl, rfl⟩

mutual

theorem ofJson?_rearranged (hf : Json.Rearranges f) :
    ∀ h : Hierarchy, AllFinite h.scalars → ofJson? (f h.toJson) = some h
  | ⟨entry, none, field⟩, finite => by
    rw [scalars] at finite
    have hunder := hf.under? _ (nodup_toMembers ⟨entry, none, field⟩) keys
    obtain ⟨hchildren, hfield⟩ := lookup_toMembers ⟨entry, none, field⟩
    rw [toJson_eq, ofJson?_eq_some_iff]
    refine ⟨?_, ?_, ?_⟩
    · exact Entry.ofRecord?_rearranged hf finite (hunder _) (hunder _) (hunder _)
    · rw [hunder, hfield]
      exact Json.optional?_string hf field
    · rw [hunder, hchildren]
      exact .absent
  | ⟨entry, some children, field⟩, finite => by
    rw [scalars, allFinite_append] at finite
    have hunder := hf.under? _ (nodup_toMembers ⟨entry, some children, field⟩) keys
    obtain ⟨hchildren, hfield⟩ := lookup_toMembers ⟨entry, some children, field⟩
    rw [toJson_eq, ofJson?_eq_some_iff]
    refine ⟨?_, ?_, ?_⟩
    · exact Entry.ofRecord?_rearranged hf finite.1 (hunder _) (hunder _) (hunder _)
    · rw [hunder, hfield]
      exact Json.optional?_string hf field
    · rw [hunder, hchildren, Option.map_some, Option.map_some, hf.array]
      exact .array (listOfJson?_rearranged hf children finite.2)

theorem listOfJson?_rearranged (hf : Json.Rearranges f) :
    ∀ hs : List Hierarchy, AllFinite (scalarsList hs) →
      listOfJson? ((listToJson hs).map f) = some hs
  | [], _ => by
    rw [listToJson, List.map_nil, listOfJson?]
  | h :: rest, finite => by
    rw [scalarsList, allFinite_append] at finite
    rw [listToJson, List.map_cons, listOfJson?, ofJson?_rearranged hf h finite.1,
      listOfJson?_rearranged hf rest finite.2]

end

end Hierarchy

theorem Entry.ofJson?_rearranged (hf : Json.Rearranges f) {e : Entry}
    (finite : AllFinite (Attributes.scalars e.attributes)) :
    Entry.ofJson? (f e.toJson) = some e := by
  have hunder :=
    hf.under? (("type", .string "node") :: e.toMembers) (by simp [Entry.toMembers]) keys
  exact ofRecord?_rearranged hf finite (hunder _) (hunder _) (hunder _)

theorem Link.ofJson?_rearranged (hf : Json.Rearranges f) (l : Link) :
    Link.ofJson? (f l.toJson) = some l := by
  have hunder := hf.under?
    [("source", .int l.source.toNat), ("target", .int l.target.toNat), ("field", .string l.field)]
    (by simp) keys
  rw [Link.toJson, Link.ofJson?_eq_some_iff, hunder, hunder, hunder]
  show (Json.asWord? (f (.int l.source.toNat)) = _ ∧ Json.asWord? (f (.int l.target.toNat)) = _ ∧
    Json.asString? (f (.string l.field)) = _)
  rw [Json.int, Json.int, hf.number, hf.number, hf.string]
  exact ⟨Json.asWord?_int l.source, Json.asWord?_int l.target, rfl⟩

/-- A list is read back from the array of its items. -/
theorem Json.items?_rearranged {α : Type} (hf : Json.Rearranges f) {read : Json → Option α}
    {write : α → Json} {l : List α} (h : ∀ a ∈ l, read (f (write a)) = some a) :
    Json.items? read (f (.array (l.map write))) = some l := by
  rw [hf.array, Json.items?_eq_some_iff]
  refine ⟨_, rfl, ?_⟩
  rw [List.map_map, List.forall₂_map_left_iff, List.forall₂_same]
  exact h

theorem FlatTree.ofJson?_rearranged (hf : Json.Rearranges f) {t : FlatTree}
    (finite : AllFinite t.scalars) : FlatTree.ofJson? (f t.toJson) = some t := by
  rw [FlatTree.scalars, allFinite_append] at finite
  have hunder := hf.under?
    [("nodes", .array (t.nodes.map Entry.toJson)), ("links", .array (t.links.map Link.toJson)),
      ("hierarchy", t.hierarchy.toJson)] (by simp) keys
  rw [FlatTree.toJson, FlatTree.ofJson?_eq_some_iff, hunder, hunder, hunder]
  refine ⟨Json.items?_rearranged hf fun e he => Entry.ofJson?_rearranged hf fun x hx => ?_,
    Json.items?_rearranged hf fun l _ => Link.ofJson?_rearranged hf l,
    Hierarchy.ofJson?_rearranged hf t.hierarchy finite.2⟩
  exact finite.1 x (List.mem_flatMap.2 ⟨e, he, hx⟩)

theorem FlatOutput.ofJson?_rearranged (hf : Json.Rearranges f) {out : FlatOutput}
    (finite : AllFinite out.scalars) : FlatOutput.ofJson? (f out.toJson) = some out := by
  rw [FlatOutput.ofJson?_eq_some_iff]
  cases out with
  | tree t => exact .inl ⟨t, FlatTree.ofJson?_rearranged hf finite, rfl⟩
  | empty =>
    obtain ⟨members, -, hobject⟩ := hf.object [] List.nodup_nil
    refine .inr ⟨?_, ?_⟩
    · -- the empty object has no nodes, so it is not taken for a tree
      rw [Option.eq_none_iff_forall_ne_some]
      intro t ht
      have hnodes := (FlatTree.ofJson?_eq_some_iff.1 ht).1
      rw [FlatOutput.toJson, hf.under? [] List.nodup_nil] at hnodes
      cases hnodes
    · rw [FlatOutput.toJson, hobject]
      rfl

theorem ParseReport.ofJson?_rearranged (hf : Json.Rearranges f) {r : ParseReport}
    (lines : r.lines < UInt64.size) (finite : AllFinite r.scalars) :
    ParseReport.ofJson? (f r.toJson) = some r := by
  rw [allFinite_scalars] at finite
  have hunder := hf.under?
    [("success", .bool r.success), ("tree", Json.orNull (r.tree.map NumberedNode.toJson)),
      ("error", Json.orNull (r.error.map .string)), ("lines", .int r.lines),
      ("flattened", Json.orNull (r.flattened.map FlatOutput.toJson))] (by simp) keys
  rw [ParseReport.toJson, ParseReport.ofJson?_eq_some_iff]
  refine ⟨?_, ?_, ?_, ?_, ?_⟩ <;> rw [hunder]
  · show Json.asBool? (f (.bool r.success)) = _
    rw [hf.bool]
    rfl
  · refine Json.optional?_orNull hf ?_ fun n hn =>
      NumberedNode.ofJson?_rearranged hf (finite.1 n hn)
    rw [NumberedNode.ofJson?]
    rfl
  · refine Json.optional?_orNull hf rfl fun e _ => ?_
    rw [hf.string]
    rfl
  · show Json.asNatBelow? UInt64.size (f (.int r.lines)) = _
    rw [Json.int, hf.number, Json.asNatBelow?,
      if_pos ⟨Int.natCast_nonneg _, Int.ofNat_lt.2 lines⟩, Int.toNat_natCast]
  · refine Json.optional?_orNull hf ?_ fun out hout =>
      FlatOutput.ofJson?_rearranged hf (finite.2 out hout)
    rfl

end

/-! ## The main theorem -/

/-- **Reports are read back from what is written of them**, in the order in which it is written and
in key order, if their floats are finite. So reading, writing and reading again is reading once. -/
theorem report_reads_back :
    (∀ r : ParseReport, r.lines < UInt64.size → AllFinite r.scalars →
      ParseReport.ofJson? r.toJson = some r ∧ ParseReport.ofJson? r.toJson.sortKeys = some r) ∧
    (∀ (j : Json) (r : ParseReport), j.InRange → ParseReport.ofJson? j = some r →
      ParseReport.ofJson? r.toJson = some r ∧ ParseReport.ofJson? r.toJson.sortKeys = some r) := by
  have back : ∀ r : ParseReport, r.lines < UInt64.size → AllFinite r.scalars →
      ParseReport.ofJson? r.toJson = some r ∧ ParseReport.ofJson? r.toJson.sortKeys = some r :=
    fun r lines finite =>
      ⟨ParseReport.ofJson?_rearranged Json.rearranges_id lines finite,
        ParseReport.ofJson?_rearranged Json.rearranges_sortKeys lines finite⟩
  exact ⟨back, fun j r range h =>
    back r (ParseReport.lines_of_ofJson? h) (ParseReport.allFinite_of_ofJson? range h)⟩

/-- A node with an attribute of each kind. -/
def mixedEntry : Entry where
  id := 7
  name := "call"
  attributes := SortedMap.ofList [("start_line", some (.int (-1))), ("name", some (.str "f")),
    ("async", some (.bool false)), ("ratio", some (.float 2.5)), ("returns", none)]

/-- A report with value leaves, and with children that are absent and an empty listing of them. -/
def mixedReport : ParseReport where
  success := true
  tree := some ⟨mixedEntry, [("value", .value (.float 1)), ("value", .value (.int 1)),
    ("operand", .node mixedEntry [("value", .value (.str "1"))])]⟩
  error := some "Parse Error: incomplete"
  lines := 3
  flattened := some (.tree {
    nodes := [mixedEntry, mixedEntry]
    links := [⟨7, 7, "operand"⟩]
    hierarchy := ⟨mixedEntry, some [⟨mixedEntry, none, some "operand"⟩,
      ⟨mixedEntry, some [], some "operand"⟩], none⟩ })

/-- A report that is written as an array, as the node of its tree is. -/
def listedReport : Json := .array [.bool true,
  .array [.int 0, .string "module", .object [], .array []], .null, .int 1, .array []]

/-- What it is read as. -/
def moduleReport : ParseReport := ⟨true, some ⟨⟨0, "module", .empty⟩, []⟩, none, 1, some .empty⟩

theorem report_reads_back_mixed :
    mixedReport.lines < UInt64.size ∧ AllFinite mixedReport.scalars ∧
    ParseReport.ofJson? mixedReport.toJson = some mixedReport ∧
    listedReport.InRange ∧ ParseReport.ofJson? listedReport = some moduleReport ∧
    ParseReport.ofJson? moduleReport.toJson.sortKeys = some moduleReport := by
  have lines : mixedReport.lines < UInt64.size := by decide
  have finite : AllFinite mixedReport.scalars := by decide +kernel
  have range : listedReport.InRange := by decide +kernel
  have hread : ParseReport.ofJson? listedReport = some moduleReport := by
    have hnode : NumberedNode.ofJson? (.array [.int 0, .string "module", .object [], .array []]) =
        some ⟨⟨0, "module", .empty⟩, []⟩ :=
      NumberedNode.ofJson?_eq_some_iff.2 ⟨rfl, [], rfl, childrenOfJson?_eq_some_iff.2 .nil⟩
    exact ParseReport.ofJson?_eq_some_iff.2
      ⟨rfl, congrArg (Option.map some) hnode, rfl, rfl, rfl⟩
  exact ⟨lines, finite, (report_reads_back.1 mixedReport lines finite).1, range, hread,
    (report_reads_back.2 _ _ range hread).2⟩

end SyntaxGraph
