import SyntaxGraph.Proofs.FloatRange
import SyntaxGraph.Proofs.Keys
import SyntaxGraph.Proofs.Reading

/-!
# Finite floats

A float that is not finite has no JSON form, so what is said of written reports is said of reports
whose floats are finite. Reports that were read are among them: a value holds finite floats and
integers of 64 bits, and such an integer, where it has to be read as a float, is a finite one.

Main statement: `ParseReport.allFinite_of_ofJson?`.
-/

namespace SyntaxGraph

/-! ## The scalars of a report -/

/-- Every scalar is finite that can fail to be: only floats can. -/
def Scalar.isFinite : Scalar → Bool
  | .float x => x.isFinite
  | _ => true

/-- The floats among scalars are finite. -/
def AllFinite (scalars : List Scalar) : Prop := ∀ s ∈ scalars, s.isFinite = true

instance (scalars : List Scalar) : Decidable (AllFinite scalars) :=
  inferInstanceAs (Decidable (∀ s ∈ scalars, s.isFinite = true))

@[simp] theorem allFinite_append {a b : List Scalar} :
    AllFinite (a ++ b) ↔ AllFinite a ∧ AllFinite b :=
  List.forall_mem_append

/-- The scalars among attributes. -/
def Attributes.scalars (attributes : Attributes) : List Scalar := attributes.entries.filterMap (·.2)

namespace Numbered

mutual

/-- The scalars of a subtree: those among attributes, and value leaves. -/
def scalars : Numbered → List Scalar
  | .node entry children => Attributes.scalars entry.attributes ++ scalarsList children
  | .value s => [s]

def scalarsList : List (String × Numbered) → List Scalar
  | [] => []
  | (_, child) :: rest => child.scalars ++ scalarsList rest

end

end Numbered

namespace Hierarchy

mutual

/-- The scalars of a nested view. -/
def scalars : Hierarchy → List Scalar
  | ⟨entry, none, _⟩ => Attributes.scalars entry.attributes
  | ⟨entry, some children, _⟩ => Attributes.scalars entry.attributes ++ scalarsList children

def scalarsList : List Hierarchy → List Scalar
  | [] => []
  | h :: rest => h.scalars ++ scalarsList rest

end

end Hierarchy

def FlatTree.scalars (t : FlatTree) : List Scalar :=
  t.nodes.flatMap (fun e => Attributes.scalars e.attributes) ++ t.hierarchy.scalars

/-- The scalars of the views of a tree that may be absent. -/
def FlatOutput.scalars : FlatOutput → List Scalar
  | .tree t => t.scalars
  | .empty => []

def ParseReport.scalars (r : ParseReport) : List Scalar :=
  (r.tree.map (·.toNumbered.scalars)).getD [] ++ (r.flattened.map FlatOutput.scalars).getD []

theorem ParseReport.allFinite_scalars {r : ParseReport} :
    AllFinite r.scalars ↔ (∀ n ∈ r.tree, AllFinite n.toNumbered.scalars) ∧
      ∀ out ∈ r.flattened, AllFinite out.scalars := by
  rw [scalars, allFinite_append]
  obtain ⟨success, tree, error, lines, flattened⟩ := r
  cases tree <;> cases flattened <;> simp [AllFinite]

/-! ## Numbers in range -/

namespace Json

/-- A number that a value can hold: an integer of 64 bits, signed or unsigned, or a finite float. -/
def Number.InRange : Number → Prop
  | .int i => Int64.minValue.toInt ≤ i ∧ i < UInt64.size
  | .float x => x.isFinite = true

instance : DecidablePred Number.InRange
  | .int i => inferInstanceAs (Decidable (Int64.minValue.toInt ≤ i ∧ i < UInt64.size))
  | .float x => inferInstanceAs (Decidable (x.isFinite = true))

mutual

/-- The numbers in a value. -/
def numbers : Json → List Number
  | .number n => [n]
  | .array items => numbersItems items
  | .object members => numbersMembers members
  | _ => []

def numbersItems : List Json → List Number
  | [] => []
  | item :: rest => item.numbers ++ numbersItems rest

def numbersMembers : List (String × Json) → List Number
  | [] => []
  | (_, value) :: rest => value.numbers ++ numbersMembers rest

end

/-- All numbers in a value are in range. -/
def InRange (j : Json) : Prop := ∀ n ∈ j.numbers, n.InRange

instance (j : Json) : Decidable j.InRange :=
  inferInstanceAs (Decidable (∀ n ∈ j.numbers, n.InRange))

theorem numbersItems_eq (items : List Json) : numbersItems items = items.flatMap numbers := by
  induction items with
  | nil => rfl
  | cons item rest ih => rw [numbersItems, ih, List.flatMap_cons]

theorem numbersMembers_eq (members : List (String × Json)) :
    numbersMembers members = members.flatMap (·.2.numbers) := by
  induction members with
  | nil => rfl
  | cons m rest ih => rw [numbersMembers, ih, List.flatMap_cons]

theorem InRange.of_mem_items {items : List Json} (h : (Json.array items).InRange) {item : Json}
    (hitem : item ∈ items) : item.InRange := by
  intro n hn
  refine h n ?_
  rw [numbers, numbersItems_eq]
  exact List.mem_flatMap.2 ⟨item, hitem, hn⟩

theorem InRange.of_mem_members {members : List (String × Json)}
    (h : (Json.object members).InRange) {m : String × Json} (hm : m ∈ members) : m.2.InRange := by
  intro n hn
  refine h n ?_
  rw [numbers, numbersMembers_eq]
  exact List.mem_flatMap.2 ⟨m, hm, hn⟩

theorem InRange.of_under? {j : Json} (h : j.InRange) {keys : RecordKeys} {key : String}
    {value : Json} (hvalue : j.under? keys key = some value) : value.InRange := by
  rcases mem_of_under? hvalue with ⟨members, rfl, hmem⟩ | ⟨items, rfl, hmem⟩
  · exact h.of_mem_members hmem
  · exact h.of_mem_items hmem

theorem InRange.tail {item : Json} {rest : List Json} (h : (Json.array (item :: rest)).InRange) :
    (Json.array rest).InRange :=
  fun n hn => h n (List.mem_append_right _ hn)

end Json

/-- Integers beyond the signed ones are read as floats, and are finite as such. -/
theorem Scalar.isFinite_of_ofJson? {j : Json} {s : Scalar} (range : j.InRange)
    (h : Scalar.ofJson? j = some s) : s.isFinite = true := by
  cases j with
  | number n =>
    have hn : n.InRange := range n (List.mem_singleton_self n)
    cases n with
    | float x =>
      cases h
      exact hn
    | int i =>
      obtain ⟨hlow, hhigh⟩ : Int64.minValue.toInt ≤ i ∧ i < UInt64.size := hn
      have hmin : Int64.minValue.toInt ≤ 0 := by decide
      have hmax : Int64.maxValue.toInt = 2 ^ 63 - 1 := rfl
      have hsize : UInt64.size = 2 ^ 64 := rfl
      rw [Scalar.ofJson?] at h
      split at h
      · cases h
        rfl
      · cases h
        obtain ⟨k, rfl⟩ : ∃ k : Nat, i = k := ⟨i.toNat, by omega⟩
        exact isFinite_ofNat (by omega) (by omega)
  | bool b => cases h; rfl
  | string t => cases h; rfl
  | _ => cases h

theorem Attributes.allFinite_of_ofJson? {j : Json} {attributes : Attributes} (range : j.InRange)
    (h : Attributes.ofJson? j = some attributes) : AllFinite attributes.scalars := by
  obtain ⟨members, entries, rfl, hentries, rfl⟩ := Attributes.ofJson?_eq_some_iff.1 h
  intro s hs
  obtain ⟨e, hmem, hvalue⟩ := List.mem_filterMap.1 hs
  obtain ⟨m, hm, -, hread⟩ :=
    exists_of_mem_of_forall₂ hentries (SortedMap.mem_of_mem_entries_ofList hmem)
  rw [hvalue, Attributes.valueOfJson?_eq] at hread
  obtain ⟨j, heq, hscalar⟩ := Json.some_of_optional? hread
  cases heq
  exact Scalar.isFinite_of_ofJson? (range.of_mem_members hm) hscalar

theorem Entry.allFinite_of_ofRecord? {keys : RecordKeys} {j : Json} {e : Entry} (range : j.InRange)
    (h : Entry.ofRecord? keys j = some e) : AllFinite (Attributes.scalars e.attributes) := by
  obtain ⟨-, -, hattributes⟩ := Entry.ofRecord?_eq_some_iff.1 h
  obtain ⟨value, hvalue, hread⟩ := Option.bind_eq_some_iff.1 hattributes
  exact Attributes.allFinite_of_ofJson? (range.of_under? hvalue) hread

namespace Numbered

mutual

theorem allFinite_of_ofJson? :
    ∀ (c : Numbered) {j : Json}, j.InRange → Numbered.ofJson? j = some c → AllFinite c.scalars
  | .node entry children, j, range, h => by
    rcases Numbered.ofJson?_eq_some_iff.1 h with ⟨n, hn, heq⟩ | ⟨-, s, -, heq⟩
    · obtain ⟨rfl, rfl⟩ := Numbered.node.inj heq
      obtain ⟨hentry, items, hitems, hchildren⟩ := NumberedNode.ofJson?_eq_some_iff.1 hn
      rw [scalars, allFinite_append]
      exact ⟨Entry.allFinite_of_ofRecord? range hentry,
        allFinite_of_childrenOfJson? n.children (range.of_under? hitems) hchildren⟩
    · cases heq
  | .value s, j, range, h => by
    rcases Numbered.ofJson?_eq_some_iff.1 h with ⟨n, -, heq⟩ | ⟨-, s, hs, heq⟩
    · cases heq
    · cases heq
      obtain ⟨v, hvalue, hread⟩ := Option.bind_eq_some_iff.1 hs
      exact List.forall_mem_singleton.2 (Scalar.isFinite_of_ofJson? (range.of_under? hvalue) hread)

theorem allFinite_of_childrenOfJson? :
    ∀ (children : List (String × Numbered)) {items : List Json}, (Json.array items).InRange →
      childrenOfJson? items = some children → AllFinite (scalarsList children)
  | [], _, _, _ => nofun
  | (field, child) :: rest, items, range, h => by
    obtain ⟨item, others, hitem, hrest, rfl⟩ :=
      List.forall₂_cons_right_iff.1 (childrenOfJson?_eq_some_iff.1 h)
    obtain ⟨node, hnode, hchild⟩ := Option.bind_eq_some_iff.1 (childOfJson?_eq_some_iff.1 hitem).2
    rw [scalarsList, allFinite_append]
    refine ⟨allFinite_of_ofJson? child ((range.of_mem_items List.mem_cons_self).of_under? hnode)
      hchild, allFinite_of_childrenOfJson? rest ?_ (childrenOfJson?_eq_some_iff.2 hrest)⟩
    exact range.tail

end

end Numbered

namespace Hierarchy

mutual

theorem allFinite_of_ofJson? :
    ∀ (h : Hierarchy) {j : Json}, j.InRange → ofJson? j = some h → AllFinite h.scalars
  | ⟨entry, children, field⟩, j, range, h => by
    obtain ⟨hentry, -, hchildren⟩ := ofJson?_eq_some_iff.1 h
    have hattributes := Entry.allFinite_of_ofRecord? range hentry
    cases children with
    | none =>
      rw [scalars]
      exact hattributes
    | some children =>
      rw [scalars, allFinite_append]
      refine ⟨hattributes, ?_⟩
      generalize hvalue : j.under? keys "children" = found at hchildren
      cases hchildren with
      | array hitems => exact allFinite_of_listOfJson? children (range.of_under? hvalue) hitems

theorem allFinite_of_listOfJson? :
    ∀ (hs : List Hierarchy) {items : List Json}, (Json.array items).InRange →
      listOfJson? items = some hs → AllFinite (scalarsList hs)
  | [], _, _, _ => nofun
  | h :: rest, items, range, hread => by
    obtain ⟨item, others, hitem, hrest, rfl⟩ :=
      List.forall₂_cons_right_iff.1 (listOfJson?_eq_some_iff.1 hread)
    rw [scalarsList, allFinite_append]
    exact ⟨allFinite_of_ofJson? h (range.of_mem_items List.mem_cons_self) hitem,
      allFinite_of_listOfJson? rest range.tail (listOfJson?_eq_some_iff.2 hrest)⟩

end

end Hierarchy

theorem FlatTree.allFinite_of_ofJson? {j : Json} {t : FlatTree} (range : j.InRange)
    (h : FlatTree.ofJson? j = some t) : AllFinite t.scalars := by
  obtain ⟨hnodes, -, hhierarchy⟩ := FlatTree.ofJson?_eq_some_iff.1 h
  obtain ⟨nodes, hvalue, hitems⟩ := Option.bind_eq_some_iff.1 hnodes
  obtain ⟨items, rfl, hentries⟩ := Json.items?_eq_some_iff.1 hitems
  obtain ⟨hierarchy, hvalue', hread⟩ := Option.bind_eq_some_iff.1 hhierarchy
  rw [FlatTree.scalars, allFinite_append]
  refine ⟨fun x hx => ?_, Hierarchy.allFinite_of_ofJson? _ (range.of_under? hvalue') hread⟩
  obtain ⟨e, he, hx⟩ := List.mem_flatMap.1 hx
  obtain ⟨item, hitem, hentry⟩ := exists_of_mem_of_forall₂ hentries he
  exact Entry.allFinite_of_ofRecord? ((range.of_under? hvalue).of_mem_items hitem) hentry x hx

/-- What is read from numbers in range is finite. -/
theorem ParseReport.allFinite_of_ofJson? {j : Json} {r : ParseReport} (range : j.InRange)
    (h : ParseReport.ofJson? j = some r) : AllFinite r.scalars := by
  obtain ⟨-, htree, -, -, hflattened⟩ := ParseReport.ofJson?_eq_some_iff.1 h
  rw [ParseReport.allFinite_scalars]
  constructor
  · intro n hn
    rw [Option.mem_def.1 hn] at htree
    obtain ⟨j, hvalue, hread⟩ := Json.some_of_optional? htree
    refine Numbered.allFinite_of_ofJson? n.toNumbered (range.of_under? hvalue) ?_
    exact Numbered.ofJson?_eq_some_iff.2 (.inl ⟨n, hread, rfl⟩)
  · intro out hout
    rw [Option.mem_def.1 hout] at hflattened
    obtain ⟨j, hvalue, hread⟩ := Json.some_of_optional? hflattened
    rcases FlatOutput.ofJson?_eq_some_iff.1 hread with ⟨t, ht, rfl⟩ | ⟨-, hempty⟩
    · exact FlatTree.allFinite_of_ofJson? (range.of_under? hvalue) ht
    · obtain ⟨-, -, rfl⟩ := Option.map_eq_some_iff.1 hempty
      exact nofun

theorem ParseReport.lines_of_ofJson? {j : Json} {r : ParseReport}
    (h : ParseReport.ofJson? j = some r) : r.lines < UInt64.size := by
  obtain ⟨-, -, -, hlines, -⟩ := ParseReport.ofJson?_eq_some_iff.1 h
  obtain ⟨j, -, hread⟩ := Option.bind_eq_some_iff.1 hlines
  unfold Json.asNatBelow? at hread
  split at hread
  · split at hread
    · rw [← Option.some.inj hread]
      omega
    · cases hread
  · cases hread

end SyntaxGraph
