import SyntaxGraph.Proofs.Acceptance
import SyntaxGraph.Proofs.ReadTexts
import SyntaxGraph.Proofs.Reports
import SyntaxGraph.Proofs.RoundTrip
import SyntaxGraph.Proofs.Subtrees

/-!
# The scalars of reports

A report has no scalars but those of the raw tree that it was made of: numbering carries them over
to attributes and value leaves, and flattening copies the attributes. The scalars of a lowered tree
are texts of the source and positions, so the report of a Python source holds no float.

A report without floats is *exact*, if its lines are few enough to be counted in 64 bits: its JSON
form is a whole value, so the report is read back from the texts of it.

Main statements: `isExact_pythonParser` and `ParseReport.IsExact.readsAs_layouts`.
-/

namespace SyntaxGraph

theorem append_subset_append {α : Type} {a b c d : List α} (h : a ⊆ b) (h' : c ⊆ d) :
    a ++ c ⊆ b ++ d :=
  List.append_subset.2
    ⟨List.subset_append_of_subset_left d h, List.subset_append_of_subset_right b h'⟩

/-! ## From the raw tree to the numbered tree -/

namespace RawValue

mutual

/-- The scalars in a value at any depth. -/
def scalars : RawValue → List Scalar
  | .null => []
  | .scalar s => [s]
  | .node _ fields => scalarsFields fields
  | .list items => scalarsItems items

def scalarsItems : List RawValue → List Scalar
  | [] => []
  | item :: rest => item.scalars ++ scalarsItems rest

def scalarsFields : List (String × RawValue) → List Scalar
  | [] => []
  | (_, value) :: rest => value.scalars ++ scalarsFields rest

end

theorem scalarsItems_eq (items : List RawValue) : scalarsItems items = items.flatMap scalars := by
  induction items with
  | nil => rfl
  | cons item rest ih => rw [scalarsItems, ih, List.flatMap_cons]

theorem scalarsFields_eq (fields : List (String × RawValue)) :
    scalarsFields fields = fields.flatMap fun f => f.2.scalars := by
  induction fields with
  | nil => rfl
  | cons f rest ih => rw [scalarsFields, ih, List.flatMap_cons]

theorem scalarsFields_append (a b : List (String × RawValue)) :
    scalarsFields (a ++ b) = scalarsFields a ++ scalarsFields b := by
  rw [scalarsFields_eq, scalarsFields_eq, scalarsFields_eq, List.flatMap_append]

end RawValue

open RawValue (scalarsItems scalarsFields)

theorem scalars_attributesOf (fields : List (String × RawValue)) :
    Attributes.scalars (attributesOf fields) ⊆ scalarsFields fields := by
  intro s hs
  obtain ⟨e, he, hvalue⟩ := List.mem_filterMap.1 hs
  rw [attributesOf_eq] at he
  obtain ⟨f, hf, hattribute⟩ := List.mem_filterMap.1 (SortedMap.mem_of_mem_entries_ofList he)
  obtain ⟨value, hfield, rfl⟩ := Option.map_eq_some_iff.1 hattribute
  cases hvalue
  rw [RawValue.scalarsFields_eq, List.mem_flatMap]
  refine ⟨f, hf, ?_⟩
  unfold RawValue.attribute? at hfield
  split at hfield
  · cases hfield
  · rename_i heq
    cases hfield
    rw [heq]
    exact List.mem_singleton_self s
  · cases hfield

namespace Numbered

theorem scalarsList_append (a b : List (String × Numbered)) :
    scalarsList (a ++ b) = scalarsList a ++ scalarsList b := by
  induction a with
  | nil => rfl
  | cons c rest ih => rw [List.cons_append, scalarsList, scalarsList, ih, List.append_assoc]

end Numbered

open Numbered (scalarsList)

/-- A node has the scalars of its fields, as attributes or below it. -/
theorem scalarsList_node {next : NodeId} {field kind : String} {fields : List (String × RawValue)}
    (h : scalarsList (numberFields (next + 1) fields).1 ⊆ scalarsFields fields) :
    scalarsList [(field, .node ⟨next, kind, attributesOf fields⟩
      (numberFields (next + 1) fields).1)] ⊆ scalarsFields fields := by
  rw [scalarsList, scalarsList, List.append_nil, Numbered.scalars]
  exact List.append_subset.2 ⟨scalars_attributesOf fields, h⟩

mutual

theorem scalarsList_numberField (next : NodeId) (field : String) :
    ∀ value : RawValue, scalarsList (numberField next field value).1 ⊆ value.scalars
  | .null | .scalar _ => List.nil_subset _
  | .node _ fields => scalarsList_node (scalarsList_numberFields (next + 1) fields)
  | .list items => scalarsList_numberItems next field items

theorem scalarsList_numberItem (next : NodeId) (field : String) :
    ∀ item : RawValue, scalarsList (numberItem next field item).1 ⊆ item.scalars
  | .null | .list _ => List.nil_subset _
  | .scalar s => List.Subset.refl [s]
  | .node _ fields => scalarsList_node (scalarsList_numberFields (next + 1) fields)

theorem scalarsList_numberItems (next : NodeId) (field : String) :
    ∀ items : List RawValue, scalarsList (numberItems next field items).1 ⊆ scalarsItems items
  | [] => List.nil_subset _
  | item :: rest => by
    rw [numberItems, scalarsItems, Numbered.scalarsList_append]
    exact append_subset_append (scalarsList_numberItem next field item)
      (scalarsList_numberItems _ field rest)

theorem scalarsList_numberFields (next : NodeId) :
    ∀ fields : List (String × RawValue),
      scalarsList (numberFields next fields).1 ⊆ scalarsFields fields
  | [] => List.nil_subset _
  | (field, value) :: rest => by
    rw [numberFields, scalarsFields, Numbered.scalarsList_append]
    exact append_subset_append (scalarsList_numberField next field value)
      (scalarsList_numberFields _ rest)

end

theorem Numbering.scalars_node (n : Numbering) (raw : RawNode) :
    (n.node raw).1.toNumbered.scalars ⊆ scalarsFields raw.fields :=
  List.append_subset.2
    ⟨scalars_attributesOf raw.fields, scalarsList_numberFields (n.assigned + 1) raw.fields⟩

/-! ## From the numbered tree to its views -/

namespace Numbered

mutual

theorem scalars_of_mem_entries :
    ∀ (c : Numbered), ∀ e ∈ c.entries, Attributes.scalars e.attributes ⊆ c.scalars
  | .node entry children, e, he => by
    rw [scalars]
    rcases List.mem_cons.1 he with rfl | he
    · exact List.subset_append_left _ _
    · exact List.subset_append_of_subset_right _ (scalars_of_mem_entriesList children e he)
  | .value _, _, he => absurd he List.not_mem_nil

theorem scalars_of_mem_entriesList :
    ∀ (children : List (String × Numbered)), ∀ e ∈ entriesList children,
      Attributes.scalars e.attributes ⊆ scalarsList children
  | [], _, he => absurd he List.not_mem_nil
  | (_, child) :: rest, e, he => by
    rw [scalarsList]
    rcases List.mem_append.1 he with he | he
    · exact List.subset_append_of_subset_left _ (scalars_of_mem_entries child e he)
    · exact List.subset_append_of_subset_right _ (scalars_of_mem_entriesList rest e he)

end

end Numbered

theorem Hierarchy.scalars_someUnlessEmpty (entry : Entry) (hs : List Hierarchy)
    (field : Option String) : Hierarchy.scalars ⟨entry, someUnlessEmpty hs, field⟩ =
      Attributes.scalars entry.attributes ++ scalarsList hs := by
  cases hs with
  | nil => rw [someUnlessEmpty, scalars, scalarsList, List.append_nil]
  | cons h rest => rw [someUnlessEmpty, scalars]

mutual

theorem scalars_hierarchyOf (field : String) :
    ∀ (c : Numbered) (h : Hierarchy), hierarchyOf field c = some h → h.scalars ⊆ c.scalars
  | .node entry children, h, heq => by
    cases heq
    rw [Hierarchy.scalars_someUnlessEmpty, Numbered.scalars]
    exact append_subset_append (List.Subset.refl _) (scalars_hierarchiesOf children)
  | .value _, _, heq => nomatch heq

theorem scalars_hierarchiesOf :
    ∀ children : List (String × Numbered),
      Hierarchy.scalarsList (hierarchiesOf children) ⊆ scalarsList children
  | [] => List.nil_subset _
  | (field, child) :: rest => by
    rw [hierarchiesOf, scalarsList]
    split
    · rename_i h heq
      rw [Hierarchy.scalarsList]
      exact append_subset_append (scalars_hierarchyOf field child h heq)
        (scalars_hierarchiesOf rest)
    · exact List.subset_append_of_subset_right _ (scalars_hierarchiesOf rest)

end

theorem NumberedNode.scalars_flatten (t : NumberedNode) :
    t.flatten.scalars ⊆ t.toNumbered.scalars := by
  refine List.append_subset.2 ⟨fun s hs => ?_, ?_⟩
  · obtain ⟨e, he, hs⟩ := List.mem_flatMap.1 hs
    exact t.toNumbered.scalars_of_mem_entries e (t.nodes_flatten_perm.mem_iff.1 he) hs
  · show t.hierarchy.scalars ⊆ _
    rw [NumberedNode.hierarchy, Hierarchy.scalars_someUnlessEmpty]
    exact append_subset_append (List.Subset.refl _) (scalars_hierarchiesOf t.children)

/-- **A report has no scalars but those of the raw tree.** -/
theorem SourceParser.scalars_report {parser : SourceParser} {source : String} :
    ∀ s ∈ (parser.report source).scalars,
      ∃ raw, parser.parse source = .ok raw ∧ s ∈ scalarsFields raw.fields := by
  intro s hs
  cases hparse : parser.parse source with
  | error e =>
    rw [report_of_error hparse] at hs
    exact absurd hs List.not_mem_nil
  | ok raw =>
    rw [report_of_ok hparse] at hs
    have htree := Numbering.scalars_node {} raw
    refine ⟨raw, rfl, ?_⟩
    rcases List.mem_append.1 hs with hs | hs
    · exact htree hs
    · exact htree (NumberedNode.scalars_flatten _ hs)

/-! ## Lowered trees -/

def Scalar.isFloat : Scalar → Bool
  | .float _ => true
  | _ => false

/-- No float is among the scalars. -/
def NoFloat (scalars : List Scalar) : Prop := ∀ s ∈ scalars, s.isFloat = false

@[simp] theorem noFloat_append {a b : List Scalar} : NoFloat (a ++ b) ↔ NoFloat a ∧ NoFloat b :=
  List.forall_mem_append

/-- A field has no scalars but those placed in it and the text that tokens are joined to. -/
theorem scalars_fieldValue {shape : FieldShape} {values : List RawValue} {s : Scalar}
    (hs : s ∈ (fieldValue shape values).scalars) :
    (∃ text, s = .str text) ∨ ∃ v ∈ values, s ∈ v.scalars := by
  have hlist : s ∈ (RawValue.list values).scalars → ∃ v ∈ values, s ∈ v.scalars := by
    rw [RawValue.scalars, RawValue.scalarsItems_eq]
    exact List.mem_flatMap.1
  cases shape with
  | scalar => exact .inl ⟨_, List.mem_singleton.1 hs⟩
  | childList => exact .inr (hlist hs)
  | child =>
    rcases values with _ | ⟨v, _ | ⟨w, rest⟩⟩
    · exact .inr (hlist hs)
    · exact .inr ⟨v, List.mem_cons_self, hs⟩
    · exact .inr (hlist hs)

theorem noFloat_emptyFields {schema : Option NodeSchema} {placed : List Placed} :
    NoFloat (scalarsFields (emptyFields schema placed)) := by
  intro s hs
  rw [RawValue.scalarsFields_eq] at hs
  obtain ⟨f, hf, hs⟩ := List.mem_flatMap.1 hs
  cases schema with
  | none => exact absurd hf List.not_mem_nil
  | some schema =>
    obtain ⟨⟨name, shape⟩, -, rfl⟩ := List.mem_map.1 hf
    cases shape <;> exact absurd hs List.not_mem_nil

namespace Lowering

variable {l : Lowering}

theorem noFloat_leafText {label : NodeLabel} {raw : RawNode} {text : List (String × RawValue)}
    (h : l.leafText label raw = .ok text) : NoFloat (scalarsFields text) := by
  intro s hs
  rcases leafText_cases h with rfl | ⟨-, t, rfl⟩
  · exact absurd hs List.not_mem_nil
  · rw [List.mem_singleton.1 hs]
    rfl

theorem noFloat_positionsOf {n : SyntaxNode} : NoFloat (scalarsFields (l.positionsOf n)) := by
  intro s hs
  unfold positionsOf at hs
  split at hs
  · simp only [positionFields, scalarsFields, RawValue.scalars, List.append_nil,
      List.cons_append, List.nil_append, List.mem_cons, List.not_mem_nil, or_false] at hs
    rcases hs with rfl | rfl | rfl | rfl <;> rfl
  · exact absurd hs List.not_mem_nil

/-- **The scalars of a lowered tree are texts and positions.** -/
theorem noFloat_of_lowerAt {depth : Nat} {n : SyntaxNode} {raw : RawNode}
    (h : l.lowerAt depth n = .ok raw) : NoFloat (scalarsFields raw.fields) := by
  refine lowerAt_induct (P := fun _ raw => NoFloat (scalarsFields raw.fields)) ?_ depth n raw h
  intro n placed raw hplaced hraw
  have hvalues : ∀ p ∈ placed, NoFloat p.value.scalars := by
    intro p hp s hs
    obtain ⟨c, -, ⟨-, -, text, hvalue⟩ | ⟨-, below, hbelow, hvalue⟩⟩ := hplaced.exists_child hp
    · rw [hvalue] at hs
      rw [List.mem_singleton.1 hs]
      rfl
    · rw [hvalue] at hs
      exact hbelow s hs
  obtain ⟨text, htext, rfl⟩ := assemble_eq_ok_iff.1 hraw
  rw [ownFields, RawValue.scalarsFields_append, RawValue.scalarsFields_append,
    RawValue.scalarsFields_append, noFloat_append, noFloat_append, noFloat_append]
  refine ⟨⟨⟨fun s hs => ?_, noFloat_emptyFields⟩, noFloat_leafText htext⟩, noFloat_positionsOf⟩
  rw [RawValue.scalarsFields_eq] at hs
  obtain ⟨f, hf, hs⟩ := List.mem_flatMap.1 hs
  obtain ⟨name, -, rfl⟩ := List.mem_map.1 hf
  rcases scalars_fieldValue hs with ⟨text, rfl⟩ | ⟨v, hv, hs⟩
  · rfl
  · obtain ⟨p, hp, rfl⟩ := List.mem_map.1 hv
    exact hvalues p (List.mem_filter.1 hp).1 s hs

end Lowering

/-! ## Exact reports -/

theorem NoFloat.allFinite {scalars : List Scalar} (h : NoFloat scalars) : AllFinite scalars := by
  intro s hs
  have hs := h s hs
  cases s with
  | float x => cases hs
  | _ => rfl

/-- Nothing of the report is rounded when it is written and read: it has no floats, and its lines
are counted in 64 bits. -/
structure ParseReport.IsExact (r : ParseReport) : Prop where
  lines : r.lines < UInt64.size
  noFloat : NoFloat r.scalars

theorem noFloat_pythonParser (tree? : String → Option SyntaxNode) (options : TreeOptions)
    (source : String) : NoFloat ((pythonParser tree? options).report source).scalars := by
  intro s hs
  obtain ⟨raw, hparse, hs⟩ := SourceParser.scalars_report s hs
  cases hroot : tree? source with
  | none =>
    simp only [pythonParser, hroot] at hparse
    cases hparse
  | some root =>
    simp only [pythonParser, hroot] at hparse
    exact Lowering.noFloat_of_lowerAt (lower_of_pythonRawTree hparse) s hs

/-- **The reports of Python sources are exact**, unless there are too many lines to be counted. -/
theorem isExact_pythonParser (tree? : String → Option SyntaxNode) (options : TreeOptions)
    {source : String} (lines : countLines source < UInt64.size) :
    ((pythonParser tree? options).report source).IsExact where
  lines := by
    rw [SourceParser.report]
    split <;> exact lines
  noFloat := noFloat_pythonParser tree? options source

/-! ## The JSON forms of exact reports -/

theorem isWhole_word (w : UInt32) : (Json.int w.toNat).IsWhole := by
  refine List.forall_mem_singleton.2 (show _ ≤ (w.toNat : Int) ∧ (w.toNat : Int) < _ from ?_)
  have hmin : Int64.minValue.toInt = -2 ^ 63 := rfl
  have hsize : UInt64.size = 2 ^ 64 := rfl
  have hlt := w.toNat_lt
  omega

theorem isWhole_orNull {value : Option Json} (h : ∀ j ∈ value, j.IsWhole) :
    (Json.orNull value).IsWhole := by
  cases value with
  | none => exact Json.isWhole_null
  | some j => exact h j rfl

theorem Scalar.isWhole_toJson {s : Scalar} (h : s.isFloat = false) : s.toJson.IsWhole := by
  cases s with
  | bool b => exact Json.isWhole_bool b
  | int i =>
    refine List.forall_mem_singleton.2 (show _ ≤ i.toInt ∧ i.toInt < _ from ?_)
    have hsize : UInt64.size = 2 ^ 64 := rfl
    have hlow := Int64.minValue_le_toInt i
    have hhigh := i.toInt_lt
    omega
  | float x => cases h
  | str t => exact Json.isWhole_string t

/-- The members of an entry are whole, and so are those put to them. -/
theorem Entry.isWhole_toMembers {e : Entry} (h : NoFloat (Attributes.scalars e.attributes))
    {others : List (String × Json)} (hothers : ∀ m ∈ others, m.2.IsWhole) :
    ∀ m ∈ e.toMembers ++ others, m.2.IsWhole := by
  rw [Entry.toMembers, List.cons_append, List.cons_append, List.cons_append, List.nil_append,
    List.forall_mem_cons, List.forall_mem_cons, List.forall_mem_cons]
  refine ⟨isWhole_word e.id, Json.isWhole_string e.name, ?_, hothers⟩
  rw [Attributes.toJson, Json.isWhole_object, List.forall_mem_map]
  refine fun a ha => isWhole_orNull fun j hj => ?_
  obtain ⟨s, hs, rfl⟩ := Option.map_eq_some_iff.1 hj
  exact Scalar.isWhole_toJson (h s (List.mem_filterMap.2 ⟨a, ha, hs⟩))

mutual

theorem Numbered.isWhole_toJson : ∀ c : Numbered, NoFloat c.scalars → c.toJson.IsWhole
  | .node entry children, h => by
    rw [Numbered.scalars, noFloat_append] at h
    rw [Numbered.toJson, Json.isWhole_object]
    refine Entry.isWhole_toMembers h.1 (List.forall_mem_singleton.2 ?_)
    exact Json.isWhole_array.2 (isWhole_childrenToJson children h.2)
  | .value s, h => by
    rw [Numbered.toJson, Json.isWhole_object, List.forall_mem_cons, List.forall_mem_singleton]
    exact ⟨Json.isWhole_string _, Scalar.isWhole_toJson (h s (List.mem_singleton_self s))⟩

theorem isWhole_childrenToJson :
    ∀ children : List (String × Numbered), NoFloat (scalarsList children) →
      ∀ item ∈ childrenToJson children, item.IsWhole
  | [], _ => nofun
  | (field, child) :: rest, h => by
    rw [scalarsList, noFloat_append] at h
    rw [childrenToJson, List.forall_mem_cons, Json.isWhole_object, List.forall_mem_cons,
      List.forall_mem_singleton]
    exact ⟨⟨Json.isWhole_string field, child.isWhole_toJson h.1⟩,
      isWhole_childrenToJson rest h.2⟩

end

namespace Hierarchy

theorem isWhole_field (field : Option String) :
    ∀ m ∈ optionalMember "field" (field.map .string), m.2.IsWhole := by
  cases field with
  | none => exact nofun
  | some s => exact List.forall_mem_singleton.2 (Json.isWhole_string s)

mutual

theorem isWhole_toJson : ∀ h : Hierarchy, NoFloat h.scalars → h.toJson.IsWhole
  | ⟨entry, none, field⟩, h => by
    rw [scalars] at h
    rw [toJson, Json.isWhole_object]
    exact Entry.isWhole_toMembers h (isWhole_field field)
  | ⟨entry, some children, field⟩, h => by
    rw [scalars, noFloat_append] at h
    rw [toJson, Json.isWhole_object, List.append_assoc]
    refine Entry.isWhole_toMembers h.1 (List.forall_mem_cons.2 ⟨?_, isWhole_field field⟩)
    exact Json.isWhole_array.2 (isWhole_listToJson children h.2)

theorem isWhole_listToJson :
    ∀ hs : List Hierarchy, NoFloat (scalarsList hs) → ∀ item ∈ listToJson hs, item.IsWhole
  | [], _ => nofun
  | h :: rest, hno => by
    rw [scalarsList, noFloat_append] at hno
    rw [listToJson, List.forall_mem_cons]
    exact ⟨isWhole_toJson h hno.1, isWhole_listToJson rest hno.2⟩

end

end Hierarchy

theorem FlatTree.isWhole_toJson {t : FlatTree} (h : NoFloat t.scalars) : t.toJson.IsWhole := by
  rw [FlatTree.scalars, noFloat_append] at h
  rw [FlatTree.toJson, Json.isWhole_object, List.forall_mem_cons, List.forall_mem_cons,
    List.forall_mem_singleton, Json.isWhole_array, Json.isWhole_array, List.forall_mem_map,
    List.forall_mem_map]
  refine ⟨fun e he => ?_, fun link _ => ?_, Hierarchy.isWhole_toJson t.hierarchy h.2⟩
  · rw [Entry.toJson, Json.isWhole_object, List.forall_mem_cons, ← List.append_nil e.toMembers]
    refine ⟨Json.isWhole_string _, Entry.isWhole_toMembers (fun s hs => ?_) fun m hm => ?_⟩
    · exact h.1 s (List.mem_flatMap.2 ⟨e, he, hs⟩)
    · cases hm
  · rw [Link.toJson, Json.isWhole_object, List.forall_mem_cons, List.forall_mem_cons,
      List.forall_mem_singleton]
    exact ⟨isWhole_word _, isWhole_word _, Json.isWhole_string _⟩

namespace ParseReport

variable {r : ParseReport}

theorem IsExact.isWhole_toJson (h : r.IsExact) : r.toJson.IsWhole := by
  have hscalars := h.noFloat
  rw [ParseReport.scalars, noFloat_append] at hscalars
  rw [ParseReport.toJson, Json.isWhole_object, List.forall_mem_cons, List.forall_mem_cons,
    List.forall_mem_cons, List.forall_mem_cons, List.forall_mem_singleton]
  refine ⟨Json.isWhole_bool _, isWhole_orNull fun j hj => ?_, isWhole_orNull fun j hj => ?_, ?_,
    isWhole_orNull fun j hj => ?_⟩
  · obtain ⟨n, hn, rfl⟩ := Option.map_eq_some_iff.1 hj
    rw [hn] at hscalars
    exact n.toNumbered.isWhole_toJson hscalars.1
  · obtain ⟨e, -, rfl⟩ := Option.map_eq_some_iff.1 hj
    exact Json.isWhole_string e
  · have hmin : Int64.minValue.toInt = -2 ^ 63 := rfl
    have hlines := h.lines
    refine List.forall_mem_singleton.2 (show _ ≤ (r.lines : Int) ∧ (r.lines : Int) < _ from ?_)
    omega
  · obtain ⟨out, hout, rfl⟩ := Option.map_eq_some_iff.1 hj
    rw [hout] at hscalars
    cases out with
    | tree t => exact t.isWhole_toJson hscalars.2
    | empty => exact Json.isWhole_object.2 fun m hm => absurd hm List.not_mem_nil

/-- **An exact report is read back from both layouts of it.** -/
theorem IsExact.readsAs_layouts (h : r.IsExact) :
    Json.ReadsAs ofJson? r.toJson.compact r ∧ Json.ReadsAs ofJson? r.toJson.pretty r := by
  have hread := ofJson?_rearranged Json.rearranges_sortKeys h.lines h.noFloat.allFinite
  obtain ⟨hcompact, hpretty⟩ := Json.denotes_layouts h.isWhole_toJson
  exact ⟨⟨_, hcompact, hread⟩, ⟨_, hpretty, hread⟩⟩

end ParseReport

end SyntaxGraph
