import Mathlib.Logic.Relation
import SyntaxGraph.Proofs.JsonTexts
import SyntaxGraph.Proofs.NodeTypeEntries
import SyntaxGraph.Proofs.SchemaLookups

/-!
# The schema of a text of node types

A text of node types is an array of entries, each read on its own, and its schema is that of the
types that the entries describe (`ofNodeTypes_eq_ok_iff`, `NodeTypes.SaysType`).

`UnseenChange` says how two listings of entries can differ without any look-up in the schema seeing
it: by an anonymous entry, by the order of two entries of different kinds, or by the order of the
members under `fields`, if none of their names occurs twice. An entry is a record, and exchanging
the value under one of its keys leaves what stands under the others (`readRecord_replace`); the
fields themselves are read member by member, so in another order they are the same fields in another
order (`readFields_of_perm`).

Main statement: `schema_of_nodeTypes`.
-/

namespace SyntaxGraph

open Relation
open Json (Written)

namespace NodeTypes

section

variable {keys : RecordKeys} {name : String} {key : List Json.StringPart} {w w' v : Written}
  {t : NodeType} {before after : List (List Json.StringPart × Written)}
  {ms : List (String × Written)}

/-! ## Entries with their fields in another order -/

/-- Another value under a key of a record leaves what stands under the other keys. -/
theorem readRecord_replace (hkey : Written.text key = .ok name) (hname : name ∈ keys.all)
    (h : readRecord keys (.object (before ++ (key, v) :: after)) = .ok ms) (v' : Written) :
    ms.lookup name = some v ∧
    ∃ ms', readRecord keys (.object (before ++ (key, v') :: after)) = .ok ms' ∧
      ms'.lookup name = some v' ∧ ∀ other, other ≠ name → ms'.lookup other = ms.lookup other := by
  obtain ⟨all, hall, rfl, hnodup⟩ := readRecord_object_eq_ok_iff.1 h
  obtain ⟨x, ⟨name', w⟩, y, hx, ⟨hname', rfl⟩, hy, rfl⟩ :=
    forall₂_middle_iff.1 (readMembers_eq_ok_iff.1 hall)
  obtain rfl : name' = name := by
    rw [hkey] at hname'
    exact (Except.ok.inj hname').symm
  have hsplit : ∀ w : Written, ((x ++ (name', w) :: y).filter fun m => keys.all.contains m.1) =
      (x.filter fun m => keys.all.contains m.1) ++
        (name', w) :: y.filter fun m => keys.all.contains m.1 := by
    intro w
    rw [List.filter_append, List.filter_cons_of_pos (by simpa using hname)]
  rw [hsplit] at hnodup ⊢
  -- the key is not repeated, so it does not stand before
  have hbefore : (x.filter fun m => keys.all.contains m.1).lookup name' = none := by
    rw [List.map_append, List.map_cons, List.nodup_append] at hnodup
    rw [List.lookup_eq_none_iff]
    intro m hm
    exact bne_iff_ne.2 fun heq =>
      hnodup.2.2 _ (List.mem_map_of_mem hm) _ List.mem_cons_self heq.symm
  refine ⟨?_, _, readRecord_object_eq_ok_iff.2 ⟨x ++ (name', v') :: y, ?_, hsplit v', ?_⟩, ?_, ?_⟩
  · rw [List.lookup_append, hbefore, SortedMap.lookup_cons_ite, if_pos rfl, Option.none_or]
  · exact readMembers_eq_ok_iff.2 (forall₂_middle_iff.2 ⟨x, _, y, hx, ⟨hkey, rfl⟩, hy, rfl⟩)
  · rwa [List.map_append, List.map_cons] at hnodup ⊢
  · rw [List.lookup_append, hbefore, SortedMap.lookup_cons_ite, if_pos rfl, Option.none_or]
  · intro other hother
    rw [List.lookup_append, List.lookup_append, SortedMap.lookup_cons_ite,
      SortedMap.lookup_cons_ite, if_neg hother, if_neg hother]

/-- The members under `fields` can be read in any order. -/
theorem readFields_of_perm {fs fs' : List (List Json.StringPart × Written)}
    {fields : List (String × ChildSpec)} (order : fs'.Perm fs)
    (h : readFields (some (.object fs)) = .ok fields) :
    ∃ fields', readFields (some (.object fs')) = .ok fields' ∧ fields'.Perm fields := by
  obtain ⟨_, heq, hread⟩ := readFields_eq_ok_iff.1 h
  cases heq
  obtain ⟨fields', hread', hperm⟩ := List.perm_comp_forall₂ order hread
  exact ⟨fields', readFields_eq_ok_iff.2 ⟨fs', rfl, hread'⟩, hperm⟩

/-- Fields have different names if their keys are different texts. -/
theorem nodup_of_readFields {fs : List (List Json.StringPart × Written)}
    {fields : List (String × ChildSpec)} (h : readFields (some (.object fs)) = .ok fields)
    (distinct : (fs.map fun m => Written.text m.1).Nodup) : (fields.map (·.1)).Nodup := by
  obtain ⟨_, heq, hread⟩ := readFields_eq_ok_iff.1 h
  cases heq
  have hkeys : (fs.map fun m => Written.text m.1) = (fields.map (·.1)).map .ok := by
    rw [List.map_map]
    exact map_eq_map_of_forall₂ (fun _ _ hm => hm.1) hread
  rw [hkeys] at distinct
  exact distinct.of_map

/-- The entries differ in the order of the members under `fields` only, none of which has the name
of another. -/
inductive ReordersFields : Written → Written → Prop
  | object {before after : List (List Json.StringPart × Written)} {key : List Json.StringPart}
      {fs fs' : List (List Json.StringPart × Written)} (hkey : Written.text key = .ok "fields")
      (order : fs'.Perm fs) (distinct : (fs.map fun m => Written.text m.1).Nodup) :
      ReordersFields (.object (before ++ (key, .object fs) :: after))
        (.object (before ++ (key, .object fs') :: after))
  /-- the fields are the third value of an entry that is written as an array -/
  | array {kind named : Written} {after : List Written}
      {fs fs' : List (List Json.StringPart × Written)} (order : fs'.Perm fs)
      (distinct : (fs.map fun m => Written.text m.1).Nodup) :
      ReordersFields (.array (kind :: named :: .object fs :: after))
        (.array (kind :: named :: .object fs' :: after))

theorem ReordersFields.symm (h : ReordersFields w w') : ReordersFields w' w := by
  cases h with
  | object hkey order distinct =>
    exact .object hkey order.symm ((order.map _).nodup_iff.2 distinct)
  | array order distinct => exact .array order.symm ((order.map _).nodup_iff.2 distinct)

/-- The records of such entries differ under `fields` only. -/
theorem ReordersFields.exists_records (h : ReordersFields w w') {ms : List (String × Written)}
    (hms : readRecord typeKeys w = .ok ms) :
    ∃ fs fs' ms', readRecord typeKeys w' = .ok ms' ∧
      ms.lookup "fields" = some (.object fs) ∧ ms'.lookup "fields" = some (.object fs') ∧
      fs'.Perm fs ∧ (fs.map fun m => Written.text m.1).Nodup ∧
      ∀ key, key ≠ "fields" → ms'.lookup key = ms.lookup key := by
  cases h with
  | @object _ _ _ fs fs' hkey order distinct =>
    obtain ⟨hfields, ms', hms', hfields', hothers⟩ :=
      readRecord_replace hkey (by decide) hms (.object fs')
    exact ⟨fs, fs', ms', hms', hfields, hfields', order, distinct, hothers⟩
  | @array kind named after fs fs' order distinct =>
    rw [readRecord_array_eq_ok_iff, RecordKeys.label?] at hms
    split at hms
    · rename_i hlength
      cases hms
      refine ⟨fs, fs', _, readRecord_array_eq_ok_iff.2 (if_pos hlength), rfl, rfl, order, distinct,
        fun key hkey => ?_⟩
      simp only [RecordKeys.all, typeKeys, List.cons_append, List.nil_append, List.zip_cons_cons,
        SortedMap.lookup_cons_ite, if_neg hkey]
    · cases hms

/-- Such entries are read as types that a schema does not tell apart. -/
theorem ReordersFields.exists_readType (h : ReordersFields w w') (ht : readType w = .ok t) :
    ∃ u, readType w' = .ok u ∧ u.kind = t.kind ∧ u.isNamed = t.isNamed ∧ u.schema = t.schema := by
  obtain ⟨ms, hms, hkind, hnamed, hfields, hchildren⟩ := readType_eq_ok_iff.1 ht
  obtain ⟨fs, fs', ms', hms', hold, hnew, order, distinct, hothers⟩ := h.exists_records hms
  rw [hold] at hfields
  obtain ⟨fields, hread, hperm⟩ := readFields_of_perm order hfields
  refine ⟨⟨t.kind, t.isNamed, fields, t.children⟩, readType_eq_ok_iff.2 ⟨ms', hms', ?_⟩, rfl, rfl,
    NodeType.schema_eq_of_perm hperm (nodup_of_readFields hfields distinct) rfl⟩
  rw [hothers "type" (by decide), hothers "named" (by decide), hothers "children" (by decide), hnew]
  exact ⟨hkind, hnamed, hread, hchildren⟩

end

/-! ## Changes of a listing -/

/-- One change of the entries of a listing that no look-up sees. -/
inductive UnseenChange : List Written → List Written → Prop
  /-- the entry of an anonymous type is left out -/
  | anonymous {before after : List Written} {w : Written} (readable : ∃ t, readType w = .ok t)
      (anonymous : EntryHolds w "named" (.bool false)) :
      UnseenChange (before ++ w :: after) (before ++ after)
  /-- two entries of different kinds change places -/
  | swap {before after : List Written} {w v : Written} {kind other : String}
      (first : HasKind w kind) (second : HasKind v other) (different : kind ≠ other) :
      UnseenChange (before ++ w :: v :: after) (before ++ v :: w :: after)
  /-- the fields of an entry are listed in another order -/
  | fields {before after : List Written} {w w' : Written} (reorders : ReordersFields w w') :
      UnseenChange (before ++ w :: after) (before ++ w' :: after)

/-- The entries are read as types with this schema. -/
def ReadAs (items : List Written) (schema : GrammarSchema) : Prop :=
  ∃ types, List.Forall₂ (fun w t => readType w = .ok t) items types ∧
    GrammarSchema.ofTypes types = schema

variable {items items' : List Written} {schema : GrammarSchema}

theorem readAs_of_reordersFields {before after : List Written} {w w' : Written}
    (h : ReordersFields w w') (hread : ReadAs (before ++ w :: after) schema) :
    ReadAs (before ++ w' :: after) schema := by
  obtain ⟨types, htypes, rfl⟩ := hread
  obtain ⟨x, t, y, hx, ht, hy, rfl⟩ := forall₂_middle_iff.1 htypes
  obtain ⟨u, hu, hkind, hnamed, hschema⟩ := h.exists_readType ht
  exact ⟨x ++ u :: y, forall₂_middle_iff.2 ⟨x, u, y, hx, hu, hy, rfl⟩,
    (GrammarSchema.ofTypes_append_replace hkind hnamed hschema).symm⟩

theorem readAs_of_swap {before after : List Written} {w v : Written} {kind other : String}
    (first : HasKind w kind) (second : HasKind v other) (different : kind ≠ other)
    (hread : ReadAs (before ++ w :: v :: after) schema) :
    ReadAs (before ++ v :: w :: after) schema := by
  obtain ⟨types, htypes, rfl⟩ := hread
  obtain ⟨x, t, y, hx, ht, hy, rfl⟩ := forall₂_middle_iff.1 htypes
  obtain ⟨u, z, hu, hz, rfl⟩ := List.forall₂_cons_left_iff.1 hy
  have kinds : t.kind ≠ u.kind := by
    rwa [kind_eq_of_readType ht first, kind_eq_of_readType hu second]
  exact ⟨x ++ u :: t :: z, forall₂_middle_iff.2 ⟨x, u, t :: z, hx, hu, .cons ht hz, rfl⟩,
    (GrammarSchema.ofTypes_append_swap kinds).symm⟩

/-- A change that no look-up sees leaves the schema. -/
theorem UnseenChange.readAs_iff (h : UnseenChange items items') :
    ReadAs items schema ↔ ReadAs items' schema := by
  cases h with
  | anonymous readable anonymous =>
    constructor
    · rintro ⟨types, htypes, rfl⟩
      obtain ⟨x, t, y, hx, ht, hy, rfl⟩ := forall₂_middle_iff.1 htypes
      exact ⟨x ++ y, List.rel_append hx hy,
        (GrammarSchema.ofTypes_append_anonymous (isNamed_eq_of_readType ht anonymous)).symm⟩
    · rintro ⟨types, htypes, rfl⟩
      obtain ⟨x, y, hx, hy, rfl⟩ := forall₂_append_iff.1 htypes
      obtain ⟨t, ht⟩ := readable
      exact ⟨x ++ t :: y, forall₂_middle_iff.2 ⟨x, t, y, hx, ht, hy, rfl⟩,
        GrammarSchema.ofTypes_append_anonymous (isNamed_eq_of_readType ht anonymous)⟩
  | swap first second different =>
    exact ⟨readAs_of_swap first second different, readAs_of_swap second first different.symm⟩
  | fields reorders =>
    exact ⟨readAs_of_reordersFields reorders, readAs_of_reordersFields reorders.symm⟩

/-- Any number of such changes leaves the schema. -/
theorem readAs_iff_of_eqvGen (h : EqvGen UnseenChange items items') :
    ReadAs items schema ↔ ReadAs items' schema := by
  induction h with
  | rel _ _ change => exact change.readAs_iff
  | refl _ => exact Iff.rfl
  | symm _ _ _ ih => exact ih.symm
  | trans _ _ _ _ _ ih ih' => exact ih.trans ih'

end NodeTypes

open NodeTypes (EntryHolds ReadAs SaysType UnseenChange readType saysType_of_readType)

/-! ## Texts -/

theorem GrammarSchema.ofNodeTypes_eq_ok_iff {text : String} {schema : GrammarSchema} :
    GrammarSchema.ofNodeTypes text = .ok schema ↔
      ∃ items, Written.ofText text = .ok (.array items) ∧ ReadAs items schema := by
  rw [ofNodeTypes, map_eq_ok_iff]
  constructor
  · rintro ⟨types, htypes, rfl⟩
    obtain ⟨w, hw, hitems⟩ := bind_eq_ok.1 htypes
    match w with
    | .array items => exact ⟨items, mapError_eq_ok_iff.1 hw, types, mapM_eq_ok_iff.1 hitems, rfl⟩
  · rintro ⟨items, hitems, types, htypes, rfl⟩
    exact ⟨types, bind_eq_ok.2 ⟨_, mapError_eq_ok_iff.2 hitems, mapM_eq_ok_iff.2 htypes⟩, rfl⟩

/-- **The schema of a text of node types.** Every entry of the text is read, as the type of node
that it describes. The schema knows exactly the kinds of the named types and describes the last
named type of each; there are as many as different kinds. Any text whose entries differ by anonymous
types, by the order of entries of different kinds, or by the order of differently named fields, has
the same schema. -/
theorem schema_of_nodeTypes (text : String) (schema : GrammarSchema)
    (h : GrammarSchema.ofNodeTypes text = .ok schema) :
    ∃ items types, Written.ofText text = .ok (.array items) ∧
      List.Forall₂ (fun w t => readType w = .ok t ∧ SaysType w t) items types ∧
      (∀ kind, (schema.node? kind).isSome ↔ ∃ t ∈ types, t.isNamed = true ∧ t.kind = kind) ∧
      (∀ before t after, types = before ++ t :: after → t.isNamed = true →
        (∀ u ∈ after, u.isNamed = true → u.kind ≠ t.kind) →
        ∃ s, schema.node? t.kind = some s ∧ t.DescribedBy s) ∧
      schema.size = ((types.filter (·.isNamed)).map (·.kind)).eraseDups.length ∧
      ∀ text' items', Written.ofText text' = .ok (.array items') →
        EqvGen UnseenChange items items' → GrammarSchema.ofNodeTypes text' = .ok schema := by
  obtain ⟨items, hitems, hread⟩ := GrammarSchema.ofNodeTypes_eq_ok_iff.1 h
  obtain ⟨types, htypes, rfl⟩ := hread
  refine ⟨items, types, hitems, htypes.imp fun w t ht => ⟨ht, saysType_of_readType ht⟩,
    fun kind => GrammarSchema.node?_ofTypes_isSome_iff, ?_, GrammarSchema.size_ofTypes types, ?_⟩
  · rintro before t after rfl hnamed hlast
    exact ⟨t.schema, GrammarSchema.node?_ofTypes_last hnamed hlast, t.describedBy_schema⟩
  · intro text' items' hitems' hchange
    exact GrammarSchema.ofNodeTypes_eq_ok_iff.2
      ⟨items', hitems', (NodeTypes.readAs_iff_of_eqvGen hchange).1 ⟨types, htypes, rfl⟩⟩

/-- An entry of a listing, with its fields. -/
def entryWith (kind : String) (named : Bool) (fields : List (String × Json)) : Json :=
  .object [("type", .string kind), ("named", .bool named), ("fields", .object fields)]

/-- A place for one named node, or for several. -/
def placeFor (multiple : Bool) : Json :=
  .object [("multiple", .bool multiple), ("types", .array [.object [("named", .bool true)]])]

/-- Two named entries and an anonymous one, all of one kind. -/
def blockListing : Json := .array [entryWith "block" true [],
  entryWith "block" true [("left", placeFor false), ("body", placeFor true)],
  entryWith "block" false []]

/-- The named entries, the second with its fields in another order. -/
def blockRelisting : Json := .array [entryWith "block" true [],
  entryWith "block" true [("body", placeFor true), ("left", placeFor false)]]

theorem schema_of_nodeTypes_block :
    ∃ schema, GrammarSchema.ofNodeTypes blockListing.compact = .ok schema ∧ schema.size = 1 ∧
      (schema.node? "block").map (·.fields.entries) =
        some [("body", .childList), ("left", .child)] ∧
      GrammarSchema.ofNodeTypes blockRelisting.pretty = .ok schema := by
  have htext := (Json.ofText_layouts blockListing).1
  have hread : GrammarSchema.ofNodeTypes blockListing.compact = .ok (.ofTypes
      [⟨"block", true, [], none⟩,
        ⟨"block", true, [("left", ⟨false, [true]⟩), ("body", ⟨true, [true]⟩)], none⟩,
        ⟨"block", false, [], none⟩]) :=
    GrammarSchema.ofNodeTypes_eq_ok_iff.2 ⟨_, htext, _,
      .cons (by rfl) (.cons (by rfl) (.cons (by rfl) .nil)), rfl⟩
  obtain ⟨items, -, hitems, -, -, -, -, hsame⟩ := schema_of_nodeTypes _ _ hread
  obtain rfl : _ = items := Written.array.inj (Except.ok.inj (htext.symm.trans hitems))
  refine ⟨_, hread, by decide, by decide, hsame _ _ (Json.ofText_layouts blockRelisting).2 ?_⟩
  have hnamed : EntryHolds (entryWith "block" false []).written "named" (.bool false) :=
    .member (show Written.text (Json.stringParts "named") = .ok "named" by rfl) (.tail _ (.head _))
  refine .trans _ _ _ (.rel _ _ (@UnseenChange.anonymous [_, _] [] _ ⟨_, rfl⟩ hnamed))
    (.rel _ _ (@UnseenChange.fields [_] [] _ _ ?_))
  exact @NodeTypes.ReordersFields.object [_, _] [] _ _ _ rfl (.swap _ _ _) (by decide)

end SyntaxGraph
