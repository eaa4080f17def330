import Mathlib.Logic.Relation
import SyntaxGraph.Proofs.Keys
import SyntaxGraph.Proofs.Reading
import SyntaxGraph.Proofs.Records

/-!
# A damaged flat tree is read as the empty one

`Json.IsFlatTree` says which values are the JSON form of a flat tree, key by key, with no reader in
it: the two lists must be there with every item in order, and so must every node of the nested view,
at whatever depth. All of these are records, written as objects or as arrays. The nodes of the
nested view are the values that a chain of `children` leads to, so one faulty node anywhere below
the root is a fault of the whole.

A flat tree is read exactly from these values (`FlatTree.exists_ofJson?_iff`). Every other object is
read as the empty tree, since the keys of that are not looked at.

Main statement: `damaged_read_as_empty`. The views of a report never decide whether the report is
read; damaged views only leave it without a tree.
-/

namespace SyntaxGraph

open Relation

namespace Json

/-! ## Values under keys -/

/-- Such a value, or `null`. -/
def OrNull (P : Json → Prop) (j : Json) : Prop := j = .null ∨ P j

/-- An array of such values. -/
def IsListOf (P : Json → Prop) (j : Json) : Prop := ∃ items, j = .array items ∧ ∀ i ∈ items, P i

def IsText (j : Json) : Prop := ∃ s, j = .string s

def IsWord (j : Json) : Prop := ∃ i : Nat, i < UInt32.size ∧ j = .int i

/-- Neither an array nor an object. -/
def IsPlain (j : Json) : Prop := (∀ items, j ≠ .array items) ∧ ∀ members, j ≠ .object members

/-- An object of plain values. -/
def IsAttributes (j : Json) : Prop := ∃ members, j = .object members ∧ ∀ m ∈ members, m.2.IsPlain

section

variable {α : Type} {read : Json → Option α} {found : Option Json} {P : Json → Prop}

theorem exists_bind_iff (h : ∀ v, (∃ a, read v = some a) ↔ P v) :
    (∃ a, found.bind read = some a) ↔ ∃ v, found = some v ∧ P v := by
  simp only [Option.bind_eq_some_iff, ← h]
  constructor
  · intro ⟨a, v, hv, ha⟩
    exact ⟨v, hv, a, ha⟩
  · intro ⟨v, hv, a, ha⟩
    exact ⟨a, v, hv, ha⟩

theorem exists_optional?_iff (h : ∀ v, (∃ a, read v = some a) ↔ P v) :
    (∃ a, optional? read found = some a) ↔ ∀ v, found = some v → OrNull P v := by
  cases found with
  | none => simp [optional?]
  | some v =>
    simp only [Option.some.injEq, forall_eq', OrNull]
    cases v <;> simp [optional?, ← h]

theorem exists_items?_iff (h : ∀ v, (∃ a, read v = some a) ↔ P v) (v : Json) :
    (∃ l, v.items? read = some l) ↔ v.IsListOf P := by
  cases v with
  | array items =>
    simp only [items?, mapM_eq_some_iff, exists_forall₂_iff, h, IsListOf, array.injEq,
      exists_eq_left']
  | _ => simp [items?, IsListOf]

end

theorem exists_asString?_iff (v : Json) : (∃ s, v.asString? = some s) ↔ v.IsText := by
  cases v <;> simp [asString?, IsText]

theorem exists_asWord?_iff (v : Json) : (∃ w, v.asWord? = some w) ↔ v.IsWord := by
  simp only [asWord?, Option.map_eq_some_iff, IsWord]
  constructor
  · intro ⟨w, n, hn, _⟩
    match v with
    | .number (.int i) =>
      rw [asNatBelow?] at hn
      split at hn
      · rename_i hrange
        have hbelow : i < UInt32.size := hrange.2
        refine ⟨i.toNat, by omega, ?_⟩
        rw [Int.toNat_of_nonneg hrange.1]
        rfl
      · cases hn
  · intro ⟨i, hi, hv⟩
    subst hv
    refine ⟨_, i, ?_, rfl⟩
    have hrange : (0 : Int) ≤ i ∧ (i : Int) < UInt32.size := by omega
    rw [int, asNatBelow?, if_pos hrange, Int.toNat_natCast]

theorem exists_valueOfJson?_iff (v : Json) :
    (∃ a, Attributes.valueOfJson? v = some a) ↔ v.IsPlain := by
  cases v with
  | number n =>
    cases n with
    | int i =>
      simp only [Attributes.valueOfJson?, Scalar.ofJson?]
      split <;> simp [IsPlain]
    | float x => simp [Attributes.valueOfJson?, Scalar.ofJson?, IsPlain]
  | _ => simp [Attributes.valueOfJson?, Scalar.ofJson?, IsPlain]

theorem exists_attributes_iff (v : Json) :
    (∃ a, Attributes.ofJson? v = some a) ↔ v.IsAttributes := by
  cases v with
  | object members =>
    simp only [Attributes.ofJson?, exists_map_eq_some_iff, mapM_eq_some_iff, exists_forall₂_iff,
      exists_valueOfJson?_iff, IsAttributes, object.injEq, exists_eq_left']
  | _ => simp [Attributes.ofJson?, IsAttributes]

/-! ## Flat trees, key by key -/

/-- A node of the list. -/
def IsEntry : Json → Prop :=
  IsRecord [("id", IsWord), ("name", IsText), ("attributes", IsAttributes)] []

def IsLink : Json → Prop := IsRecord [("source", IsWord), ("target", IsWord), ("field", IsText)] []

/-- A node of the nested view, whatever its children are. -/
def IsViewNode : Json → Prop :=
  IsRecord [("id", IsWord), ("name", IsText), ("attributes", IsAttributes)]
    [("children", OrNull (IsListOf fun _ => True)), ("field", OrNull IsText)]

/-- The item stands among the children. -/
def HasChild (j item : Json) : Prop :=
  ∃ items, j.Holds ["id", "name", "attributes"] ["children", "field"] "children" (.array items) ∧
    item ∈ items

/-- Every value that a chain of children leads to is a node of the view. -/
def IsView (top : Json) : Prop := ∀ v, ReflTransGen HasChild top v → v.IsViewNode

/-- **The JSON form of a flat tree**, with other keys among those it has. -/
def IsFlatTree : Json → Prop :=
  IsRecord [("nodes", IsListOf IsEntry), ("links", IsListOf IsLink), ("hierarchy", IsView)] []

/-! ## What is read -/

theorem exists_ofRecord?_iff (keys : RecordKeys) (j : Json) :
    (∃ e, Entry.ofRecord? keys j = some e) ↔
      (∃ v, j.under? keys "id" = some v ∧ v.IsWord) ∧
      (∃ v, j.under? keys "name" = some v ∧ v.IsText) ∧
      ∃ v, j.under? keys "attributes" = some v ∧ v.IsAttributes := by
  rw [← exists_bind_iff exists_asWord?_iff, ← exists_bind_iff exists_asString?_iff,
    ← exists_bind_iff exists_attributes_iff]
  constructor
  · intro ⟨e, he⟩
    obtain ⟨hid, hname, hattributes⟩ := Entry.ofRecord?_eq_some_iff.1 he
    exact ⟨⟨_, hid⟩, ⟨_, hname⟩, ⟨_, hattributes⟩⟩
  · intro ⟨⟨id, hid⟩, ⟨name, hname⟩, ⟨attributes, hattributes⟩⟩
    exact ⟨⟨id, name, attributes⟩, Entry.ofRecord?_eq_some_iff.2 ⟨hid, hname, hattributes⟩⟩

theorem exists_entry_iff (v : Json) : (∃ e, Entry.ofJson? v = some e) ↔ v.IsEntry := by
  rw [IsEntry, isRecord_iff Entry.keys rfl rfl, Entry.ofJson?, exists_ofRecord?_iff]
  simp only [List.forall_mem_cons, List.not_mem_nil, false_implies, implies_true, and_true]

theorem exists_link_iff (v : Json) : (∃ l, Link.ofJson? v = some l) ↔ v.IsLink := by
  rw [IsLink, isRecord_iff Link.keys rfl rfl]
  simp only [List.forall_mem_cons, List.not_mem_nil, false_implies, implies_true, and_true]
  rw [← exists_bind_iff exists_asWord?_iff, ← exists_bind_iff exists_asWord?_iff,
    ← exists_bind_iff exists_asString?_iff]
  constructor
  · intro ⟨l, hl⟩
    obtain ⟨hsource, htarget, hfield⟩ := Link.ofJson?_eq_some_iff.1 hl
    exact ⟨⟨_, hsource⟩, ⟨_, htarget⟩, ⟨_, hfield⟩⟩
  · intro ⟨⟨source, hsource⟩, ⟨target, htarget⟩, ⟨field, hfield⟩⟩
    exact ⟨⟨source, target, field⟩, Link.ofJson?_eq_some_iff.2 ⟨hsource, htarget, hfield⟩⟩

/-! ## The nested view -/

theorem hasChild_iff {j item : Json} :
    j.HasChild item ↔
      ∃ items, j.under? Hierarchy.keys "children" = some (.array items) ∧ item ∈ items := by
  simp only [under?_eq_some_iff]
  rfl

theorem HasChild.sizeOf_lt {j item : Json} (h : j.HasChild item) : sizeOf item < sizeOf j := by
  obtain ⟨items, hitems, hmem⟩ := hasChild_iff.1 h
  have hvalue := sizeOf_lt_of_under? hitems
  have hitem := List.sizeOf_lt_of_mem hmem
  simp only [array.sizeOf_spec] at hvalue
  omega

theorem isViewNode_iff {j : Json} :
    j.IsViewNode ↔ (∃ e, Entry.ofRecord? Hierarchy.keys j = some e) ∧
      (∃ field, optional? asString? (j.under? Hierarchy.keys "field") = some field) ∧
      ∀ v, j.under? Hierarchy.keys "children" = some v → OrNull (IsListOf fun _ => True) v := by
  rw [IsViewNode, isRecord_iff Hierarchy.keys rfl rfl, exists_ofRecord?_iff,
    exists_optional?_iff exists_asString?_iff]
  simp only [List.forall_mem_cons, List.not_mem_nil, false_implies, implies_true, and_true]
  rw [and_comm (a := ∀ v, _ → OrNull IsText v)]

theorem isViewNode_of_ofJson? {j : Json} {view : Hierarchy}
    (h : Hierarchy.ofJson? j = some view) : j.IsViewNode := by
  obtain ⟨hentry, hfield, hchildren⟩ := Hierarchy.ofJson?_eq_some_iff.1 h
  refine isViewNode_iff.2 ⟨⟨_, hentry⟩, ⟨_, hfield⟩, fun v hv => ?_⟩
  rw [hv] at hchildren
  generalize view.children = children at hchildren
  cases hchildren with
  | null => exact .inl rfl
  | array _ => exact .inr ⟨_, rfl, fun _ _ => trivial⟩

theorem HasChild.exists_ofJson? {j item : Json} {view : Hierarchy} (hitem : j.HasChild item)
    (h : Hierarchy.ofJson? j = some view) : ∃ below, Hierarchy.ofJson? item = some below := by
  obtain ⟨-, -, hchildren⟩ := Hierarchy.ofJson?_eq_some_iff.1 h
  obtain ⟨items, hitems, hmem⟩ := hasChild_iff.1 hitem
  rw [hitems] at hchildren
  generalize view.children = children at hchildren
  cases hchildren with
  | array hread =>
    exact exists_forall₂_iff.1 ⟨_, Hierarchy.listOfJson?_eq_some_iff.1 hread⟩ item hmem

/-- A node in order is read if its children are. -/
theorem IsViewNode.exists_ofJson? {j : Json} (node : j.IsViewNode)
    (below : ∀ item, j.HasChild item → ∃ view, Hierarchy.ofJson? item = some view) :
    ∃ view, Hierarchy.ofJson? j = some view := by
  obtain ⟨⟨entry, hentry⟩, ⟨field, hfield⟩, hvalue⟩ := isViewNode_iff.1 node
  have hchildren :
      ∃ children, Hierarchy.ChildrenRead (j.under? Hierarchy.keys "children") children := by
    cases hfound : j.under? Hierarchy.keys "children" with
    | none => exact ⟨none, .absent⟩
    | some v =>
      rcases hvalue v hfound with hnull | ⟨items, harray, -⟩
      · subst hnull
        exact ⟨none, .null⟩
      · subst harray
        obtain ⟨children, hread⟩ :=
          exists_forall₂_iff.2 fun item hitem => below item (hasChild_iff.2 ⟨items, hfound, hitem⟩)
        exact ⟨some children, .array (Hierarchy.listOfJson?_eq_some_iff.2 hread)⟩
  obtain ⟨children, hread⟩ := hchildren
  exact ⟨⟨entry, children, field⟩, Hierarchy.ofJson?_eq_some_iff.2 ⟨hentry, hfield, hread⟩⟩

/-- **The nested view is read exactly if every node of it is in order.** -/
theorem exists_hierarchy_iff (top : Json) :
    (∃ view, Hierarchy.ofJson? top = some view) ↔ top.IsView := by
  constructor
  · intro hread v hway
    -- along a way down, every value is read
    have hbelow : ∃ view, Hierarchy.ofJson? v = some view := by
      induction hway with
      | refl => exact hread
      | tail _ hchild ih =>
        obtain ⟨view, hview⟩ := ih
        exact hchild.exists_ofJson? hview
    obtain ⟨view, hview⟩ := hbelow
    exact isViewNode_of_ofJson? hview
  · intro nodes
    induction hsize : sizeOf top using Nat.strongRecOn generalizing top with
    | ind size ih =>
      apply (nodes top .refl).exists_ofJson?
      intro item hitem
      refine ih (sizeOf item) (hsize ▸ hitem.sizeOf_lt) item ?_ rfl
      intro v hway
      exact nodes v (.head hitem hway)

end Json

/-- **A flat tree is read exactly from the JSON form of one.** -/
theorem FlatTree.exists_ofJson?_iff (j : Json) :
    (∃ t, FlatTree.ofJson? j = some t) ↔ j.IsFlatTree := by
  rw [Json.IsFlatTree, Json.isRecord_iff keys rfl rfl]
  simp only [List.forall_mem_cons, List.not_mem_nil, false_implies, implies_true, and_true]
  rw [← Json.exists_bind_iff (Json.exists_items?_iff Json.exists_entry_iff),
    ← Json.exists_bind_iff (Json.exists_items?_iff Json.exists_link_iff),
    ← Json.exists_bind_iff Json.exists_hierarchy_iff]
  constructor
  · intro ⟨t, ht⟩
    obtain ⟨hnodes, hlinks, hhierarchy⟩ := FlatTree.ofJson?_eq_some_iff.1 ht
    exact ⟨⟨_, hnodes⟩, ⟨_, hlinks⟩, ⟨_, hhierarchy⟩⟩
  · intro ⟨⟨nodes, hnodes⟩, ⟨links, hlinks⟩, ⟨hierarchy, hhierarchy⟩⟩
    exact ⟨⟨nodes, links, hierarchy⟩, FlatTree.ofJson?_eq_some_iff.2 ⟨hnodes, hlinks, hhierarchy⟩⟩

/-! ## Views that may be damaged -/

theorem FlatOutput.exists_tree_iff (views : List (String × Json)) :
    (∃ t, FlatOutput.ofJson? (.object views) = some (.tree t)) ↔
      (Json.object views).IsFlatTree := by
  rw [← FlatTree.exists_ofJson?_iff, FlatOutput.ofJson?]
  cases FlatTree.ofJson? (.object views) <;> simp [FlatOutput.emptyOfJson?, Json.members?]

theorem FlatOutput.ofJson?_eq_empty_iff (views : List (String × Json)) :
    FlatOutput.ofJson? (.object views) = some .empty ↔ ¬ (Json.object views).IsFlatTree := by
  rw [← FlatTree.exists_ofJson?_iff, FlatOutput.ofJson?]
  cases FlatTree.ofJson? (.object views) <;> simp [FlatOutput.emptyOfJson?, Json.members?]

/-- No object is refused. -/
theorem FlatOutput.exists_ofJson? (views : List (String × Json)) :
    ∃ out, FlatOutput.ofJson? (.object views) = some out := by
  by_cases htree : (Json.object views).IsFlatTree
  · obtain ⟨t, ht⟩ := (FlatOutput.exists_tree_iff views).2 htree
    exact ⟨.tree t, ht⟩
  · exact ⟨.empty, (FlatOutput.ofJson?_eq_empty_iff views).2 htree⟩

/-- A report without its views. -/
def Json.withoutViews : Json → Json
  | .object members => .object (members.filter fun m => m.1 ∉ ["flattened"])
  | .array items => .array (items.dropLast ++ [.null])
  | j => j

/-- The views stand under the last key of a report. -/
def Json.HasViews (j views : Json) : Prop :=
  j.Holds ["success", "tree", "error", "lines", "flattened"] [] "flattened" views

theorem Json.HasViews.under?_withoutViews {j views : Json} (h : j.HasViews views) :
    (∀ key, key ≠ "flattened" →
      j.withoutViews.under? ParseReport.keys key = j.under? ParseReport.keys key) ∧
    ∀ {α : Type} (read : Json → Option α),
      Json.optional? read (j.withoutViews.under? ParseReport.keys "flattened") = some none := by
  cases h with
  | @member members _ _ h =>
    have hlookup : ∀ key, (Json.object members).withoutViews.under? ParseReport.keys key =
        if key ∈ ["flattened"] then none else members.lookup key :=
      lookup_filter_not_mem ["flattened"] members
    refine ⟨fun key hkey => ?_, fun read => ?_⟩
    · rw [hlookup, if_neg (by simpa using hkey)]
      rfl
    · rw [hlookup]
      rfl
  | @item items _ _ h =>
    -- an array has all five values
    match items, h.enough, h.room with
    | [success, tree, error, lines, flattened], _, _ =>
      refine ⟨fun key hkey => ?_, fun read => rfl⟩
      show [("success", success), ("tree", tree), ("error", error), ("lines", lines),
          ("flattened", Json.null)].lookup key =
        [("success", success), ("tree", tree), ("error", error), ("lines", lines),
          ("flattened", flattened)].lookup key
      simp only [SortedMap.lookup_cons_ite, if_neg hkey]

/-- A report is read as it would be without its views, and then has what these are read as. -/
theorem ParseReport.ofJson?_of_views {j : Json} {views : List (String × Json)}
    (h : j.HasViews (.object views)) :
    ParseReport.ofJson? j = (ParseReport.ofJson? j.withoutViews).map fun r =>
      { r with flattened := FlatOutput.ofJson? (.object views) } := by
  obtain ⟨hothers, hnone⟩ := h.under?_withoutViews
  obtain ⟨out, hout⟩ := FlatOutput.exists_ofJson? views
  have hviews :
      Json.optional? FlatOutput.ofJson? (j.under? keys "flattened") = some (some out) := by
    have hvalue : j.under? keys "flattened" = some (.object views) := Json.under?_eq_some_iff.2 h
    rw [hvalue]
    show (FlatOutput.ofJson? (.object views)).map some = some (some out)
    rw [hout]
    rfl
  simp only [ParseReport.ofJson?, hothers _ (show "success" ≠ "flattened" by decide),
    hothers _ (show "tree" ≠ "flattened" by decide),
    hothers _ (show "error" ≠ "flattened" by decide),
    hothers _ (show "lines" ≠ "flattened" by decide), hnone, hviews, hout]
  simp

/-- **A damaged flat tree is read as the empty one.** An object is read as the three views exactly
if it is the JSON form of a flat tree, and as the empty tree if it is not, whatever keys it has. So
the views never decide whether a report is read: it is read as it would be without them, and damaged
views leave it with the empty tree. -/
theorem damaged_read_as_empty (views : List (String × Json)) :
    ((∃ t, FlatOutput.ofJson? (.object views) = some (.tree t)) ↔
      (Json.object views).IsFlatTree) ∧
    (FlatOutput.ofJson? (.object views) = some .empty ↔ ¬ (Json.object views).IsFlatTree) ∧
    ∀ j : Json, j.HasViews (.object views) →
      ParseReport.ofJson? j = (ParseReport.ofJson? j.withoutViews).map fun r =>
        { r with flattened := FlatOutput.ofJson? (.object views) } :=
  ⟨FlatOutput.exists_tree_iff views, FlatOutput.ofJson?_eq_empty_iff views,
    fun _ h => ParseReport.ofJson?_of_views h⟩

/-- A list of nodes without the other two views, in a report that is an object and in one that is an
array. -/
theorem damaged_read_as_empty_nodesOnly :
    FlatOutput.ofJson? (.object [("nodes", .array [])]) = some .empty ∧
    ParseReport.ofJson? (.object [("success", .bool true), ("lines", .int 1),
        ("flattened", .object [("nodes", .array [])])]) =
      some ⟨true, none, none, 1, some .empty⟩ ∧
    ParseReport.ofJson? (.array [.bool true, .null, .null, .int 1,
        .object [("nodes", .array [])]]) =
      some ⟨true, none, none, 1, some .empty⟩ := by
  obtain ⟨-, hempty, hreport⟩ := damaged_read_as_empty [("nodes", .array [])]
  have damaged : ¬ (Json.object [("nodes", .array [])]).IsFlatTree := by
    intro h
    obtain ⟨links, ⟨hlinks⟩, -⟩ := h.present ("links", Json.IsListOf Json.IsLink) (by simp)
    cases hlinks
  refine ⟨hempty.2 damaged, ?_, ?_⟩
  · rw [hreport _ (.member rfl), hempty.2 damaged]
    rfl
  · rw [hreport _ (.item ⟨by decide, by decide, 4, rfl, rfl⟩), hempty.2 damaged]
    rfl

/-- A flat tree but for the number of a node below the root, which has too many bits. -/
def farChild : List (String × Json) :=
  let entry (id : Int) (name : String) : List (String × Json) :=
    [("id", .int id), ("name", .string name), ("attributes", .object [])]
  [("nodes", .array [.object (entry 0 "module")]), ("links", .array []),
    ("hierarchy", .object (entry 0 "module" ++ [("children", .array
      [.object (entry 4294967296 "x" ++ [("field", .string "children")])])]))]

theorem not_isFlatTree_farChild : ¬ (Json.object farChild).IsFlatTree := by
  intro h
  obtain ⟨top, ⟨htop⟩, view⟩ := h.present ("hierarchy", Json.IsView) (by simp)
  cases htop
  have child := view _ (.single ⟨_, .member rfl, List.mem_singleton_self _⟩)
  obtain ⟨id, ⟨hid⟩, i, hi, hword⟩ := child.present ("id", Json.IsWord) (by simp)
  cases hid
  have hword : (4294967296 : Int) = i := by
    injection hword with hnumber
    injection hnumber
  have hsize : UInt32.size = 4294967296 := rfl
  omega

/-- It has all three keys of a flat tree, and both it and a report with it are read with the empty
tree. -/
theorem farChild_read_as_empty :
    (Json.object farChild).get? "nodes" ≠ none ∧ (Json.object farChild).get? "links" ≠ none ∧
    (Json.object farChild).get? "hierarchy" ≠ none ∧ ¬ (Json.object farChild).IsFlatTree ∧
    FlatOutput.ofJson? (.object farChild) = some .empty ∧
    ParseReport.ofJson? (.object [("success", .bool true), ("lines", .int 1),
        ("flattened", .object farChild)]) =
      some ⟨true, none, none, 1, some .empty⟩ := by
  have hempty : FlatOutput.ofJson? (.object farChild) = some .empty :=
    (FlatOutput.ofJson?_eq_empty_iff farChild).2 not_isFlatTree_farChild
  refine ⟨nofun, nofun, nofun, not_isFlatTree_farChild, hempty, ?_⟩
  rw [ParseReport.ofJson?_of_views (.member rfl), hempty]
  rfl

end SyntaxGraph
