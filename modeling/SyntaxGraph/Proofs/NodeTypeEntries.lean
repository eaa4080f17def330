import SyntaxGraph.Grammar.NodeTypes
import SyntaxGraph.Proofs.Keys
import SyntaxGraph.Proofs.Outcomes
import SyntaxGraph.Proofs.Records

/-!
# What an entry of a listing of node types says

`SaysType` says of an entry, value by value as they stand in the text, which type of node it
describes: its kind, whether it is named, and for each place whether there can be several nodes and
which of the types listed for it are named. No reader is mentioned in it. An entry that is read is
read as the type that it describes (`saysType_of_readType`).

A record is read without repeated keys, so what is looked up in it is what stands in it
(`lookup_readRecord_eq_some_iff`).
-/

namespace SyntaxGraph

open Json (Written)

/-- The value stands under the key of a record with these keys. -/
inductive Json.Written.Holds (leading trailing : List String) : Written → String → Written → Prop
  | member {members : List (List StringPart × Written)} {parts : List StringPart} {key : String}
      {v : Written} (hkey : Written.text parts = .ok key) (h : (parts, v) ∈ members) :
      Holds leading trailing (.object members) key v
  | item {items : List Written} {key : String} {v : Written}
      (h : ItemFor leading trailing items key v) : Holds leading trailing (.array items) key v

namespace NodeTypes

/-! ## Descriptions -/

/-- There can be several nodes at a place or not, and of the types listed for it these are named. -/
structure SaysPlace (w : Written) (spec : ChildSpec) : Prop where
  multiple : w.Holds ["multiple", "types"] [] "multiple" (.bool spec.multiple)
  types : ∃ refs, w.Holds ["multiple", "types"] [] "types" (.array refs) ∧
    List.Forall₂ (fun r named => r.Holds ["named"] [] "named" (.bool named)) refs spec.namedTypes

/-- The value stands under the key of an entry. -/
def EntryHolds : Written → String → Written → Prop :=
  Written.Holds ["type", "named"] ["fields", "children"]

/-- The entry has this kind. -/
def HasKind (w : Written) (kind : String) : Prop :=
  ∃ parts, EntryHolds w "type" (.string parts) ∧ Written.text parts = .ok kind

/-- The entry describes this type of node. Without `fields` it has none, and without `children`, or
with `null` there, no place for children without a field. -/
structure SaysType (w : Written) (t : NodeType) : Prop where
  kind : HasKind w t.kind
  isNamed : EntryHolds w "named" (.bool t.isNamed)
  fields : ((∀ v, ¬ EntryHolds w "fields" v) ∧ t.fields = []) ∨
    ∃ fs, EntryHolds w "fields" (.object fs) ∧
      List.Forall₂ (fun m f => Written.text m.1 = .ok f.1 ∧ SaysPlace m.2 f.2) fs t.fields
  children : ((∀ v, EntryHolds w "children" v → v = .null) ∧ t.children = none) ∨
    ∃ v spec, EntryHolds w "children" v ∧ t.children = some spec ∧ SaysPlace v spec

/-! ## Records -/

section

variable {keys : RecordKeys} {key : String} {w v : Written}
  {members : List (List Json.StringPart × Written)} {ms : List (String × Written)}

theorem readMembers_eq_ok_iff : readMembers (.object members) = .ok ms ↔
    List.Forall₂ (fun m n => Written.text m.1 = .ok n.1 ∧ m.2 = n.2) members ms := by
  rw [readMembers, mapM_eq_ok_iff]
  have hmember : ∀ (m : List Json.StringPart × Written) (n : String × Written),
      (do return (← (Written.text m.1).mapError NodeTypesError.text, m.2)) = .ok n ↔
        Written.text m.1 = .ok n.1 ∧ m.2 = n.2 := by
    intro m n
    rw [bind_eq_ok]
    constructor
    · rintro ⟨text, htext, h⟩
      cases h
      exact ⟨mapError_eq_ok_iff.1 htext, rfl⟩
    · rintro ⟨htext, hvalue⟩
      exact ⟨n.1, mapError_eq_ok_iff.2 htext, by rw [hvalue]; rfl⟩
  simp only [← hmember]

/-- Known keys are there once each if none of them is counted twice. -/
theorem nodup_filter_iff {all : List (String × Written)} :
    ((all.filter fun m => keys.all.contains m.1).map (·.1)).Nodup ↔
      ∀ name ∈ keys.all, (all.filter fun m => keys.all.contains m.1).countP (·.1 = name) ≤ 1 := by
  have hcount : ∀ name, ((all.filter fun m => keys.all.contains m.1).map (·.1)).count name =
      (all.filter fun m => keys.all.contains m.1).countP (·.1 = name) := by
    intro name
    rw [List.count, List.countP_map]
    exact List.countP_congr fun m _ => by simp
  rw [List.nodup_iff_count_le_one]
  simp only [hcount]
  refine ⟨fun h name _ => h name, fun h name => ?_⟩
  by_cases hname : name ∈ keys.all
  · exact h name hname
  · have hzero : (all.filter fun m => keys.all.contains m.1).countP (·.1 = name) = 0 := by
      rw [List.countP_eq_zero]
      intro m hm heq
      have hknown := (List.mem_filter.1 hm).2
      rw [of_decide_eq_true heq, List.contains_iff_mem] at hknown
      exact hname hknown
    omega

/-- An object is a record if no known key is repeated in it. -/
theorem readRecord_object_eq_ok_iff : readRecord keys (.object members) = .ok ms ↔
    ∃ all, readMembers (.object members) = .ok all ∧
      (all.filter fun m => keys.all.contains m.1) = ms ∧ (ms.map (·.1)).Nodup := by
  rw [readRecord, bind_eq_ok]
  · refine exists_congr fun all => and_congr_right fun _ => ?_
    dsimp only
    cases hfind : keys.all.find? fun name =>
        1 < (all.filter fun m => keys.all.contains m.1).countP fun m => m.1 = name with
    | none =>
      have honce := List.find?_eq_none.1 hfind
      constructor
      · intro h
        cases h
        exact ⟨rfl, nodup_filter_iff.2 fun name hname => by simpa using honce name hname⟩
      · rintro ⟨rfl, -⟩
        rfl
    | some name =>
      refine ⟨nofun, fun ⟨hms, hnodup⟩ => ?_⟩
      subst hms
      have htwice := List.find?_some hfind
      have honce := nodup_filter_iff.1 hnodup name (List.mem_of_find?_eq_some hfind)
      simp only [decide_eq_true_eq] at htwice
      omega
  · exact nofun

theorem readRecord_array_eq_ok_iff {items : List Written} :
    readRecord keys (.array items) = .ok ms ↔ keys.label? items = some ms := by
  rw [readRecord]
  cases keys.label? items <;> simp

/-- What is looked up in a record is what stands in it. -/
theorem lookup_readRecord_eq_some_iff (h : readRecord keys w = .ok ms) (hkey : key ∈ keys.all) :
    ms.lookup key = some v ↔ w.Holds keys.leading keys.trailing key v := by
  match w with
  | .array items =>
    have hlookup : (keys.label? items).bind (·.lookup key) = some v ↔
        ItemFor keys.leading keys.trailing items key v := RecordKeys.lookup_label?_eq_some_iff
    rw [readRecord_array_eq_ok_iff.1 h, Option.bind_some] at hlookup
    exact hlookup.trans ⟨.item, fun | .item h => h⟩
  | .object members =>
    obtain ⟨all, hall, rfl, hnodup⟩ := readRecord_object_eq_ok_iff.1 h
    have hread := readMembers_eq_ok_iff.1 hall
    rw [lookup_eq_some_iff_mem hnodup, List.mem_filter, List.contains_iff_mem, and_iff_left hkey]
    constructor
    · intro hmem
      obtain ⟨⟨parts, value⟩, hm, htext, hvalue⟩ := exists_of_mem_of_forall₂ hread hmem
      cases hvalue
      exact .member htext hm
    · rintro (⟨htext, hm⟩ | _)
      obtain ⟨⟨name, value⟩, hmem, hname, hvalue⟩ := exists_of_mem_of_forall₂ hread.flip hm
      cases hvalue
      cases htext.symm.trans hname
      exact hmem

end

/-! ## Entries -/

section

variable {w v : Written} {t : NodeType} {spec : ChildSpec}

theorem require_eq_ok_iff {ms : List (String × Written)} {key : String} {v : Written} :
    require ms key = .ok v ↔ ms.lookup key = some v := by
  rw [require]
  cases ms.lookup key <;> simp

theorem readBool_eq_ok_iff {b : Bool} : readBool w = .ok b ↔ w = .bool b := by
  cases w <;> simp [readBool]

theorem readString_eq_ok_iff {s : String} :
    readString w = .ok s ↔ ∃ parts, w = .string parts ∧ Written.text parts = .ok s := by
  cases w <;> simp [readString, mapError_eq_ok_iff]

theorem readItems_eq_ok_iff {α : Type} {read : Written → Except NodeTypesError α} {l : List α} :
    readItems read w = .ok l ↔
      ∃ items, w = .array items ∧ List.Forall₂ (fun item a => read item = .ok a) items l := by
  cases w <;> simp [readItems, mapM_eq_ok_iff]

theorem holds_of_readTypeRef {named : Bool} (h : readTypeRef w = .ok named) :
    w.Holds ["named"] [] "named" (.bool named) := by
  obtain ⟨ms, hms, h⟩ := bind_eq_ok.1 h
  obtain ⟨v, hrequired, hnamed⟩ := bind_eq_ok.1 h
  have hholds := (lookup_readRecord_eq_some_iff hms (by decide)).1 (require_eq_ok_iff.1 hrequired)
  rwa [readBool_eq_ok_iff.1 hnamed] at hholds

theorem saysPlace_of_readChildSpec (h : readChildSpec w = .ok spec) : SaysPlace w spec := by
  obtain ⟨ms, hms, h⟩ := bind_eq_ok.1 h
  obtain ⟨v, hv, h⟩ := bind_eq_ok.1 h
  obtain ⟨multiple, hmultiple, h⟩ := bind_eq_ok.1 h
  obtain ⟨u, hu, h⟩ := bind_eq_ok.1 h
  obtain ⟨named, hnamed, h⟩ := bind_eq_ok.1 h
  cases h
  have hholds := (lookup_readRecord_eq_some_iff hms (by decide)).1 (require_eq_ok_iff.1 hv)
  have hholds' := (lookup_readRecord_eq_some_iff hms (by decide)).1 (require_eq_ok_iff.1 hu)
  obtain ⟨refs, rfl, hrefs⟩ := readItems_eq_ok_iff.1 hnamed
  rw [readBool_eq_ok_iff.1 hmultiple] at hholds
  exact ⟨hholds, refs, hholds', hrefs.imp fun _ _ => holds_of_readTypeRef⟩

theorem readType_eq_ok_iff : readType w = .ok t ↔
    ∃ ms, readRecord typeKeys w = .ok ms ∧
      (∃ v, ms.lookup "type" = some v ∧ readString v = .ok t.kind) ∧
      (∃ v, ms.lookup "named" = some v ∧ readBool v = .ok t.isNamed) ∧
      readFields (ms.lookup "fields") = .ok t.fields ∧
      readChildren (ms.lookup "children") = .ok t.children := by
  rw [readType, bind_eq_ok]
  refine exists_congr fun ms => and_congr_right fun _ => ?_
  simp only [bind_eq_ok, require_eq_ok_iff]
  constructor
  · rintro ⟨v, hv, kind, hkind, u, hu, named, hnamed, fields, hfields, children, hchildren, h⟩
    cases h
    exact ⟨⟨v, hv, hkind⟩, ⟨u, hu, hnamed⟩, hfields, hchildren⟩
  · rintro ⟨⟨v, hv, hkind⟩, ⟨u, hu, hnamed⟩, hfields, hchildren⟩
    exact ⟨v, hv, t.kind, hkind, u, hu, t.isNamed, hnamed, t.fields, hfields, t.children, hchildren,
      rfl⟩

theorem readFields_eq_ok_iff {fields : List (String × ChildSpec)} :
    readFields (some w) = .ok fields ↔ ∃ fs, w = .object fs ∧
      List.Forall₂ (fun m f => Written.text m.1 = .ok f.1 ∧ readChildSpec m.2 = .ok f.2)
        fs fields := by
  have hfield : ∀ (m : String × Written) (f : String × ChildSpec),
      (do return (m.1, ← readChildSpec m.2)) = .ok f ↔ m.1 = f.1 ∧ readChildSpec m.2 = .ok f.2 := by
    intro m f
    rw [bind_eq_ok]
    constructor
    · rintro ⟨spec, hspec, h⟩
      cases h
      exact ⟨rfl, hspec⟩
    · rintro ⟨hname, hspec⟩
      exact ⟨f.2, hspec, by rw [hname]; rfl⟩
  rw [readFields, bind_eq_ok]
  match w with
  | .object fs =>
    simp only [readMembers_eq_ok_iff, mapM_eq_ok_iff, hfield, exists_forall₂_comp_iff,
      Written.object.injEq, exists_eq_left']
    constructor
    · intro h
      refine h.imp ?_
      rintro m f ⟨n, ⟨hname, hvalue⟩, heq, hspec⟩
      exact ⟨heq ▸ hname, hvalue ▸ hspec⟩
    · intro h
      exact h.imp fun m f ⟨hname, hspec⟩ => ⟨(f.1, m.2), ⟨hname, rfl⟩, rfl, hspec⟩
  | .null | .bool _ | .number _ | .string _ | .array _ => exact iff_of_false nofun nofun

theorem saysType_of_readType (h : readType w = .ok t) : SaysType w t := by
  obtain ⟨ms, hms, ⟨kind, hkind, hkindread⟩, ⟨named, hnamed, hnamedread⟩, hfields, hchildren⟩ :=
    readType_eq_ok_iff.1 h
  have hholds : ∀ key ∈ typeKeys.all, ∀ v, ms.lookup key = some v ↔ EntryHolds w key v :=
    fun key hkey v => lookup_readRecord_eq_some_iff hms hkey
  obtain ⟨parts, rfl, htext⟩ := readString_eq_ok_iff.1 hkindread
  rw [readBool_eq_ok_iff.1 hnamedread] at hnamed
  refine ⟨⟨parts, (hholds _ (by decide) _).1 hkind, htext⟩, (hholds _ (by decide) _).1 hnamed,
    ?_, ?_⟩
  · cases hlookup : ms.lookup "fields" with
    | none =>
      rw [hlookup] at hfields
      refine .inl ⟨fun v hv => ?_, (Except.ok.inj hfields).symm⟩
      cases hlookup.symm.trans ((hholds _ (by decide) v).2 hv)
    | some v =>
      rw [hlookup] at hfields
      obtain ⟨fs, rfl, hread⟩ := readFields_eq_ok_iff.1 hfields
      exact .inr ⟨fs, (hholds _ (by decide) _).1 hlookup,
        hread.imp fun _ _ hm => ⟨hm.1, saysPlace_of_readChildSpec hm.2⟩⟩
  · cases hlookup : ms.lookup "children" with
    | none =>
      rw [hlookup] at hchildren
      refine .inl ⟨fun v hv => ?_, (Except.ok.inj hchildren).symm⟩
      cases hlookup.symm.trans ((hholds _ (by decide) v).2 hv)
    | some v =>
      have hv := (hholds _ (by decide) v).1 hlookup
      rw [hlookup] at hchildren
      by_cases hnull : v = .null
      · subst hnull
        refine .inl ⟨fun u hu => ?_, (Except.ok.inj hchildren).symm⟩
        cases hlookup.symm.trans ((hholds _ (by decide) u).2 hu)
        rfl
      · rw [readChildren.eq_3 _ hnull] at hchildren
        obtain ⟨spec, hspec, heq⟩ := map_eq_ok_iff.1 hchildren
        exact .inr ⟨v, spec, hv, heq.symm, saysPlace_of_readChildSpec hspec⟩

theorem kind_eq_of_readType (h : readType w = .ok t) {kind : String} (hkind : HasKind w kind) :
    t.kind = kind := by
  obtain ⟨ms, hms, ⟨v, hv, hread⟩, -⟩ := readType_eq_ok_iff.1 h
  obtain ⟨parts, hholds, htext⟩ := hkind
  rw [(lookup_readRecord_eq_some_iff hms (by decide)).2 hholds] at hv
  cases hv
  exact Except.ok.inj ((mapError_eq_ok_iff.1 hread).symm.trans htext)

theorem isNamed_eq_of_readType (h : readType w = .ok t) {named : Bool}
    (hnamed : EntryHolds w "named" (.bool named)) : t.isNamed = named := by
  obtain ⟨ms, hms, -, ⟨v, hv, hread⟩, -⟩ := readType_eq_ok_iff.1 h
  rw [(lookup_readRecord_eq_some_iff hms (by decide)).2 hnamed] at hv
  cases hv
  exact (Except.ok.inj hread).symm

end

end NodeTypes

end SyntaxGraph
