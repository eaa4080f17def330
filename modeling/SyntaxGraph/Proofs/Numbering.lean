import Mathlib.Algebra.Ring.Nat
import SyntaxGraph.Proofs.TreeListing

/-!
# Numbers run through a tree in pre-order

`stamp` gives the items of a listing of raw nodes one number after the other. Numbering a raw tree
is stamping its listing: this is proved along the recursion of the numbering, whose state is the
number that comes next.

A numbering is used for any number of calls, each of which goes on where the last one stopped.
`Numbering.calls` runs such a sequence.

Main statement: `calls_number_preorder`. As long as there are numbers left, a sequence of calls
hands out 0, 1, 2, ... in the order in which the nodes are met, and a call without a node hands
out none.
-/

namespace SyntaxGraph

/-! ## Stamping a listing -/

def RawNode.entry (n : RawNode) (id : NodeId) : Entry := ⟨id, n.kind, attributesOf n.fields⟩

/-- Number the nodes of a listing from `next`. -/
def stamp (next : NodeId) : List (Listed RawNode) → List (Listed Entry)
  | [] => []
  | x :: rest => ⟨x.depth, x.field, x.item.entry next⟩ :: stamp (next + 1) rest

theorem add_one_add_ofNat (next : NodeId) (k : Nat) :
    next + 1 + UInt32.ofNat k = next + UInt32.ofNat (k + 1) := by
  rw [UInt32.ofNat_add, UInt32.add_comm (UInt32.ofNat k), UInt32.add_assoc]
  rfl

theorem stamp_append (next : NodeId) (a b : List (Listed RawNode)) :
    stamp next (a ++ b) = stamp next a ++ stamp (next + UInt32.ofNat a.length) b := by
  induction a generalizing next with
  | nil => simp [stamp]
  | cons x rest ih =>
    rw [List.cons_append, stamp, stamp, ih, List.length_cons, add_one_add_ofNat, List.cons_append]

theorem length_stamp (next : NodeId) (raws : List (Listed RawNode)) :
    (stamp next raws).length = raws.length := by
  induction raws generalizing next with
  | nil => rfl
  | cons x rest ih => rw [stamp, List.length_cons, List.length_cons, ih]

theorem getElem?_stamp (next : NodeId) (raws : List (Listed RawNode)) (m : Nat) :
    (stamp next raws)[m]? =
      raws[m]?.map fun x => ⟨x.depth, x.field, x.item.entry (next + UInt32.ofNat m)⟩ := by
  induction raws generalizing next m with
  | nil => rfl
  | cons x rest ih =>
    cases m with
    | zero => simp [stamp]
    | succ m => rw [stamp, List.getElem?_cons_succ, ih, List.getElem?_cons_succ, add_one_add_ofNat]

/-- Adding to a number does not wrap around while there are numbers left. -/
theorem toNat_add_ofNat {next : NodeId} {k : Nat} (room : next.toNat + k < 2 ^ 32) :
    (next + UInt32.ofNat k).toNat = next.toNat + k := by
  rw [UInt32.toNat_add, UInt32.toNat_ofNat', Nat.mod_eq_of_lt (by omega : k < 2 ^ 32),
    Nat.mod_eq_of_lt room]

theorem ids_stamp {next : NodeId} {raws : List (Listed RawNode)}
    (room : next.toNat + raws.length ≤ 2 ^ 32) :
    (stamp next raws).map (·.item.id.toNat) = List.range' next.toNat raws.length := by
  refine List.ext_getElem? fun m => ?_
  rw [List.getElem?_map, getElem?_stamp]
  by_cases hm : m < raws.length
  · rw [List.getElem?_eq_getElem hm, List.getElem?_range' hm]
    simp [RawNode.entry, toNat_add_ofNat (by omega : next.toNat + m < 2 ^ 32)]
  · rw [List.getElem?_eq_none (by omega : raws.length ≤ m), List.getElem?_eq_none (by simp; omega)]
    rfl

/-! ## Numbering is stamping -/

/-- What the numbering gives from `next` for the raw nodes of a listing: children that are listed
as the stamped listing, and the number that comes next. -/
structure Stamps (next : NodeId) (depth : Nat) (raws : List (Listed RawNode))
    (out : List (String × Numbered) × NodeId) : Prop where
  listing : Numbered.listingList depth out.1 = stamp next raws
  after : out.2 = next + UInt32.ofNat raws.length

namespace Stamps

variable {next : NodeId} {depth : Nat}

theorem none : Stamps next depth [] ([], next) := ⟨rfl, by simp⟩

theorem value (field : String) (scalar : Scalar) :
    Stamps next depth [] ([(field, .value scalar)], next) := ⟨rfl, by simp⟩

theorem append {a b : List (Listed RawNode)} {here there : List (String × Numbered)}
    {between after : NodeId} (first : Stamps next depth a (here, between))
    (second : Stamps between depth b (there, after)) :
    Stamps next depth (a ++ b) (here ++ there, after) := by
  obtain ⟨hlist, hafter⟩ := first
  obtain ⟨hlist', hafter'⟩ := second
  simp only at hlist hafter hlist' hafter'
  subst hafter
  refine ⟨?_, ?_⟩
  · rw [Numbered.listingList_append, stamp_append, hlist, hlist']
  · show after = _
    rw [hafter', List.length_append, UInt32.ofNat_add, UInt32.add_assoc]

theorem node {below : List (Listed RawNode)} {children : List (String × Numbered)}
    {after : NodeId} (field : String) (raw : RawNode)
    (h : Stamps (next + 1) (depth + 1) below (children, after)) :
    Stamps next depth (⟨depth, some field, raw⟩ :: below)
      ([(field, .node (raw.entry next) children)], after) := by
  obtain ⟨hlist, hafter⟩ := h
  simp only at hlist hafter
  refine ⟨?_, ?_⟩
  · rw [Numbered.listingList, Numbered.listing, Numbered.listingList, List.append_nil, stamp, hlist]
  · show after = _
    rw [hafter, List.length_cons, add_one_add_ofNat]

end Stamps

mutual

/-- The invariant along a field. -/
theorem stamps_numberField (next : NodeId) (depth : Nat) (field : String) :
    ∀ value : RawValue,
      Stamps next depth (value.listing depth (some field)) (numberField next field value)
  | .null => .none
  | .scalar _ => .none
  | .node kind fields => .node field ⟨kind, fields⟩ (stamps_numberFields (next + 1) _ fields)
  | .list items => stamps_numberItems next depth field items

theorem stamps_numberItem (next : NodeId) (depth : Nat) (field : String) :
    ∀ item : RawValue,
      Stamps next depth (RawValue.listingItems depth (some field) [item])
        (numberItem next field item)
  | .null => .none
  | .scalar s => .value field s
  | .node kind fields => by
    rw [RawValue.listingItems, RawValue.listing, RawValue.listingItems, List.append_nil]
    · exact .node field ⟨kind, fields⟩ (stamps_numberFields (next + 1) _ fields)
    · exact fun _ h => RawValue.noConfusion h
  | .list _ => .none

theorem stamps_numberItems (next : NodeId) (depth : Nat) (field : String) :
    ∀ items : List RawValue,
      Stamps next depth (RawValue.listingItems depth (some field) items)
        (numberItems next field items)
  | [] => .none
  | item :: rest => by
    rw [RawValue.listingItems_cons, numberItems]
    exact (stamps_numberItem next depth field item).append (stamps_numberItems _ depth field rest)

theorem stamps_numberFields (next : NodeId) (depth : Nat) :
    ∀ fields : List (String × RawValue),
      Stamps next depth (RawValue.listingFields depth fields) (numberFields next fields)
  | [] => .none
  | (field, value) :: rest => by
    rw [RawValue.listingFields, numberFields]
    exact (stamps_numberField next depth field value).append (stamps_numberFields _ depth rest)

end

namespace Numbering

/-- The listing of a numbered tree is the stamped listing of its raw tree. -/
theorem listing_node (n : Numbering) (raw : RawNode) :
    (n.node raw).1.listing = stamp n.assigned raw.listing := by
  have h := (stamps_numberFields (n.assigned + 1) 1 raw.fields).listing
  show _ :: Numbered.listingList 1 (numberFields (n.assigned + 1) raw.fields).1 = _
  rw [h]
  rfl

/-- A numbering hands out one number for each node that is listed. -/
theorem assigned_node (n : Numbering) (raw : RawNode) :
    (n.node raw).2.assigned = n.assigned + UInt32.ofNat raw.listing.length := by
  have h := (stamps_numberFields (n.assigned + 1) 1 raw.fields).after
  show (numberFields (n.assigned + 1) raw.fields).2 = _
  rw [h, add_one_add_ofNat]
  rfl

theorem nodeCount_node (n : Numbering) (raw : RawNode) :
    (n.node raw).1.nodeCount = raw.listing.length := by
  rw [← NumberedNode.length_listing, listing_node, length_stamp]

/-- The numbers of a tree run on from where the numbering stands. -/
theorem preorderIds_node {n : Numbering} {raw : RawNode}
    (room : n.assigned.toNat + (n.node raw).1.nodeCount ≤ 2 ^ 32) :
    (n.node raw).1.preorderIds.map UInt32.toNat =
      List.range' n.assigned.toNat (n.node raw).1.nodeCount := by
  rw [nodeCount_node] at room ⊢
  rw [← ids_stamp room, ← listing_node, NumberedNode.preorderIds_eq_listing, List.map_map]
  rfl

end Numbering

/-! ## Runs of calls -/

/-- A use of a numbering. -/
inductive Call where
  /-- number what stands where a node might -/
  | convert (raw : Option RawValue)
  | node (raw : RawNode)

namespace Call

/-- The node that the call is given; absence, nothing, a scalar and a list are none. -/
def rawNode? : Call → Option RawNode
  | .convert raw => raw.bind RawValue.asNode?
  | .node raw => some raw

/-- The raw nodes that the call numbers. -/
def listing (c : Call) : List (Listed RawNode) := (c.rawNode?.map RawNode.listing).getD []

end Call

namespace Numbering

/-- The outcome of a call. -/
def call (n : Numbering) : Call → Option Numbered × Numbering
  | .convert raw => n.convert raw
  | .node raw =>
    let (root, after) := n.node raw
    (some root.toNumbered, after)

/-- The outcomes of calls made one after the other, and the numbering after the last. -/
def calls (n : Numbering) : List Call → List (Option Numbered) × Numbering
  | [] => ([], n)
  | c :: rest =>
    let (here, between) := n.call c
    let (there, after) := between.calls rest
    (here :: there, after)

theorem call_of_rawNode?_eq_none {c : Call} (h : c.rawNode? = none) (n : Numbering) :
    (n.call c).1.bind Numbered.asNode? = none ∧ (n.call c).2 = n := by
  match c with
  | .convert none | .convert (some .null) | .convert (some (.scalar _))
  | .convert (some (.list _)) => exact ⟨rfl, rfl⟩
  | .convert (some (.node kind fields)) =>
    exact absurd h (by simp [Call.rawNode?, RawValue.asNode?])

theorem call_of_rawNode?_eq_some {c : Call} {raw : RawNode} (h : c.rawNode? = some raw)
    (n : Numbering) :
    n.call c = (some (n.node raw).1.toNumbered, (n.node raw).2) := by
  match c with
  | .node _ =>
    cases h
    rfl
  | .convert (some (.node kind fields)) =>
    cases h
    rfl
  | .convert none | .convert (some .null) | .convert (some (.scalar _))
  | .convert (some (.list _)) => exact absurd h (by simp [Call.rawNode?, RawValue.asNode?])

theorem call_eq_none_iff (n : Numbering) (c : Call) :
    (n.call c).1.bind Numbered.asNode? = none ↔ c.rawNode? = none := by
  refine ⟨fun h => ?_, fun h => (call_of_rawNode?_eq_none h n).1⟩
  cases hraw : c.rawNode? with
  | none => rfl
  | some raw =>
    rw [call_of_rawNode?_eq_some hraw] at h
    exact absurd h (by simp [NumberedNode.toNumbered, Numbered.asNode?])

theorem assigned_call {n : Numbering} {c : Call}
    (room : n.assigned.toNat + c.listing.length < 2 ^ 32) :
    (n.call c).2.assigned.toNat = n.assigned.toNat + c.listing.length := by
  cases h : c.rawNode? with
  | none =>
    rw [(call_of_rawNode?_eq_none h n).2, Call.listing, h]
    rfl
  | some raw =>
    have hlist : c.listing = raw.listing := by rw [Call.listing, h]; rfl
    rw [hlist] at room ⊢
    rw [call_of_rawNode?_eq_some h]
    show (n.node raw).2.assigned.toNat = _
    rw [assigned_node, toNat_add_ofNat room]

/-- The numbers in the outcome of a call. -/
def idsOf (out : Option Numbered) : List Nat :=
  ((out.bind Numbered.asNode?).map fun t => t.preorderIds.map UInt32.toNat).getD []

theorem idsOf_call {n : Numbering} {c : Call}
    (room : n.assigned.toNat + c.listing.length ≤ 2 ^ 32) :
    idsOf (n.call c).1 = List.range' n.assigned.toNat c.listing.length := by
  cases h : c.rawNode? with
  | none =>
    rw [idsOf, (call_of_rawNode?_eq_none h n).1, Call.listing, h]
    rfl
  | some raw =>
    have hlist : c.listing = raw.listing := by rw [Call.listing, h]; rfl
    rw [hlist, ← n.nodeCount_node] at room ⊢
    rw [call_of_rawNode?_eq_some h]
    exact preorderIds_node room

theorem calls_append (n : Numbering) (a b : List Call) :
    n.calls (a ++ b) =
      ((n.calls a).1 ++ ((n.calls a).2.calls b).1, ((n.calls a).2.calls b).2) := by
  induction a generalizing n with
  | nil => rfl
  | cons c rest ih => simp only [List.cons_append, calls, ih]

theorem length_calls (n : Numbering) (cs : List Call) : (n.calls cs).1.length = cs.length := by
  induction cs generalizing n with
  | nil => rfl
  | cons c rest ih => simp only [calls, List.length_cons, ih]

/-- A run moves the numbering on by the nodes of all its calls. -/
theorem assigned_calls {n : Numbering} {cs : List Call}
    (room : n.assigned.toNat + (cs.flatMap Call.listing).length < 2 ^ 32) :
    (n.calls cs).2.assigned.toNat = n.assigned.toNat + (cs.flatMap Call.listing).length := by
  induction cs generalizing n with
  | nil => rfl
  | cons c rest ih =>
    rw [List.flatMap_cons, List.length_append] at room ⊢
    have hcall : (n.call c).2.assigned.toNat = n.assigned.toNat + c.listing.length :=
      assigned_call (by omega)
    have hrest : ((n.call c).2.calls rest).2.assigned.toNat =
        (n.call c).2.assigned.toNat + (rest.flatMap Call.listing).length :=
      ih (by omega)
    show ((n.call c).2.calls rest).2.assigned.toNat = _
    omega

/-- A run hands out one number after the other, from where it starts. -/
theorem idsOf_calls {n : Numbering} {cs : List Call}
    (room : n.assigned.toNat + (cs.flatMap Call.listing).length < 2 ^ 32) :
    (n.calls cs).1.flatMap idsOf =
      List.range' n.assigned.toNat (cs.flatMap Call.listing).length := by
  induction cs generalizing n with
  | nil => rfl
  | cons c rest ih =>
    rw [List.flatMap_cons, List.length_append] at room ⊢
    have hcall : (n.call c).2.assigned.toNat = n.assigned.toNat + c.listing.length :=
      assigned_call (by omega)
    have hrest : ((n.call c).2.calls rest).1.flatMap idsOf =
        List.range' (n.call c).2.assigned.toNat (rest.flatMap Call.listing).length :=
      ih (by omega)
    show idsOf (n.call c).1 ++ ((n.call c).2.calls rest).1.flatMap idsOf = _
    rw [idsOf_call (by omega), hrest, hcall, List.range'_append_1]

end Numbering

/-! ## The numbers of a run -/

/-- `tree` is `raw` with its nodes numbered from `first` in pre-order: where the listing of the
one has a node, the listing of the other has it too, under its number and its kind, at the same
level and held by the same field. -/
structure NumberedFrom (first : Nat) (raw : RawNode) (tree : NumberedNode) : Prop where
  length : tree.listing.length = raw.listing.length
  entry : ∀ m x, raw.listing[m]? = some x →
    ∃ e : Entry, tree.listing[m]? = some ⟨x.depth, x.field, e⟩ ∧ e.id.toNat = first + m ∧
      e.name = x.item.kind ∧ e.attributes = attributesOf x.item.fields

theorem numberedFrom_node {n : Numbering} {raw : RawNode}
    (room : n.assigned.toNat + raw.listing.length ≤ 2 ^ 32) :
    NumberedFrom n.assigned.toNat raw (n.node raw).1 := by
  refine ⟨by rw [n.listing_node, length_stamp], fun m x hx => ?_⟩
  have hm : m < raw.listing.length := (List.getElem?_eq_some_iff.1 hx).1
  refine ⟨x.item.entry (n.assigned + UInt32.ofNat m), ?_, ?_, rfl, rfl⟩
  · rw [n.listing_node, getElem?_stamp, hx]
    rfl
  · exact toNat_add_ofNat (by omega)

/-- **Numbers run through all calls in pre-order.** While fewer than 2³² nodes are numbered in
all, the numbers in the outcomes of a run are 0, 1, 2, ... without a gap, up to the number that
comes next. A call gives no node exactly if it is given none, and then hands out no number; any
other call numbers its tree in pre-order from where it starts. -/
theorem calls_number_preorder (calls : List Call)
    (room : (calls.flatMap Call.listing).length < 2 ^ 32) :
    (Numbering.calls {} calls).1.flatMap Numbering.idsOf =
      List.range (Numbering.calls {} calls).2.assigned.toNat ∧
    ∀ before call after, calls = before ++ call :: after →
      let start := (Numbering.calls {} before).2
      let outcome := (start.call call).1
      (Numbering.calls {} calls).1[before.length]? = some outcome ∧
      (outcome.bind Numbered.asNode? = none ↔ call.rawNode? = none) ∧
      (outcome.bind Numbered.asNode? = none → (start.call call).2 = start) ∧
      ∀ raw, call.rawNode? = some raw →
        ∃ tree, outcome = some tree.toNumbered ∧
          NumberedFrom start.assigned.toNat raw tree := by
  have hroom : ({} : Numbering).assigned.toNat + (calls.flatMap Call.listing).length < 2 ^ 32 := by
    show 0 + _ < _
    omega
  refine ⟨?_, ?_⟩
  · rw [Numbering.idsOf_calls hroom, Numbering.assigned_calls hroom, List.range_eq_range']
    show List.range' 0 _ = List.range' 0 (0 + _)
    rw [Nat.zero_add]
  · rintro before call after rfl
    intro start outcome
    refine ⟨?_, start.call_eq_none_iff call,
      fun h => (Numbering.call_of_rawNode?_eq_none ((start.call_eq_none_iff call).1 h) start).2,
      fun raw hraw => ?_⟩
    · rw [Numbering.calls_append, List.getElem?_append_right
        (Nat.le_of_eq (Numbering.length_calls {} before)), Numbering.length_calls, Nat.sub_self]
      rfl
    · refine ⟨(start.node raw).1, congrArg Prod.fst
        (Numbering.call_of_rawNode?_eq_some hraw start), numberedFrom_node ?_⟩
      -- the calls made so far, this one included, are part of the run
      have hlist : call.listing = raw.listing := by rw [Call.listing, hraw]; rfl
      rw [List.flatMap_append, List.flatMap_cons, List.length_append, List.length_append,
        hlist] at hroom
      have hstart : start.assigned.toNat =
          ({} : Numbering).assigned.toNat + (before.flatMap Call.listing).length :=
        Numbering.assigned_calls (by omega)
      omega

/-- A node with a name that occurs twice, and with nothing, a scalar and a list among the items of
a list. -/
def mixedNode : RawNode where
  kind := "call"
  fields := [("function", .node "identifier" []), ("line", .scalar (.int 1)),
    ("arguments", .list [.null, .node "integer" [], .list [.node "dropped" []],
      .scalar (.str "x"), .node "integer" []]),
    ("function", .node "identifier" [])]

/-- The node, between calls that give none and before another node. -/
def mixedCalls : List Call :=
  [.convert none, .convert (some (.list [.node "skipped" []]))] ++ .node mixedNode ::
    [.convert (some (.scalar (.bool true))), .convert (some (.node "module" []))]

theorem calls_number_preorder_mixed :
    (mixedCalls.flatMap Call.listing).length < 2 ^ 32 ∧
    (Numbering.calls {} mixedCalls).2.assigned = 6 ∧
    (Numbering.calls {} mixedCalls).1.flatMap Numbering.idsOf =
      List.range (Numbering.calls {} mixedCalls).2.assigned.toNat ∧
    ∃ tree, NumberedFrom 0 mixedNode tree := by
  have room : (mixedCalls.flatMap Call.listing).length < 2 ^ 32 := by decide
  obtain ⟨hids, hcalls⟩ := calls_number_preorder mixedCalls room
  obtain ⟨-, -, -, hnode⟩ := hcalls _ _ _ rfl
  obtain ⟨tree, -, htree⟩ := hnode mixedNode rfl
  exact ⟨room, by decide, hids, tree, htree⟩

end SyntaxGraph
