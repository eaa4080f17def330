import SyntaxGraph.FlatTree.Flatten
import SyntaxGraph.Proofs.Keys
import SyntaxGraph.Proofs.Subtrees

/-!
# Deleting fields by name

`without names` deletes the fields of these names from every node of a raw tree, and from a
numbered tree the attributes of these names; the numbers and the children stay.

As long as no node holds children in such a field, the numbering does not see the difference:
numbering and deleting commute (`Numbering.node_without`), and so do flattening and deleting
(`nodes_flatten_without`, `links_flatten_without`).
-/

namespace SyntaxGraph

/-! ## Deleting -/

namespace RawValue

mutual

/-- The value without the fields of these names, in all its nodes. -/
def without (names : List String) : RawValue → RawValue
  | .null => .null
  | .scalar s => .scalar s
  | .node kind fields => .node kind (withoutFields names fields)
  | .list items => .list (withoutItems names items)

def withoutItems (names : List String) : List RawValue → List RawValue
  | [] => []
  | v :: rest => v.without names :: withoutItems names rest

/-- The fields of a node that are not of these names, and what they hold without them. -/
def withoutFields (names : List String) : List (String × RawValue) → List (String × RawValue)
  | [] => []
  | (name, v) :: rest =>
    if name ∈ names then withoutFields names rest
    else (name, v.without names) :: withoutFields names rest

end

end RawValue

/-- The node without the fields of these names, and so all nodes below it. -/
def RawNode.without (names : List String) (n : RawNode) : RawNode :=
  ⟨n.kind, RawValue.withoutFields names n.fields⟩

/-- The map without these keys. -/
def SortedMap.without {α : Type} (names : List String) (m : SortedMap α) : SortedMap α :=
  ⟨m.entries.filter (·.1 ∉ names), m.sorted.filter _⟩

/-- The entry without the attributes of these names. -/
def Entry.without (names : List String) (e : Entry) : Entry :=
  { e with attributes := e.attributes.without names }

namespace Numbered

mutual

/-- The subtree without the attributes of these names, in all its nodes. -/
def without (names : List String) : Numbered → Numbered
  | .node entry children => .node (entry.without names) (withoutList names children)
  | .value s => .value s

def withoutList (names : List String) : List (String × Numbered) → List (String × Numbered)
  | [] => []
  | (field, child) :: rest => (field, child.without names) :: withoutList names rest

end

end Numbered

/-- The node without the attributes of these names, and so all nodes below it. -/
def NumberedNode.without (names : List String) (n : NumberedNode) : NumberedNode :=
  ⟨n.entry.without names, Numbered.withoutList names n.children⟩

variable {names : List String}

/-! ## Fields and attributes -/

namespace RawValue

theorem withoutItems_eq (items : List RawValue) :
    withoutItems names items = items.map (without names) := by
  induction items with
  | nil => rfl
  | cons v rest ih => rw [withoutItems, ih, List.map_cons]

theorem withoutFields_eq (fields : List (String × RawValue)) :
    withoutFields names fields =
      (fields.filter (·.1 ∉ names)).map fun f => (f.1, f.2.without names) := by
  induction fields with
  | nil => rfl
  | cons f rest ih =>
    obtain ⟨name, v⟩ := f
    rw [withoutFields, ih]
    by_cases hname : name ∈ names
    · rw [if_pos hname, List.filter_cons_of_neg (by simpa using hname)]
    · rw [if_neg hname, List.filter_cons_of_pos (by simpa using hname), List.map_cons]

theorem withoutFields_append (a b : List (String × RawValue)) :
    withoutFields names (a ++ b) = withoutFields names a ++ withoutFields names b := by
  simp only [withoutFields_eq, List.filter_append, List.map_append]

theorem withoutFields_eq_nil {fields : List (String × RawValue)} (h : ∀ f ∈ fields, f.1 ∈ names) :
    withoutFields names fields = [] := by
  rw [withoutFields_eq, List.filter_eq_nil_iff.2, List.map_nil]
  intro f hf
  simpa using h f hf

theorem IsBare.without_eq {v : RawValue} (h : v.IsBare) : v.without names = v := by
  cases h <;> rfl

/-- Fields of other names that hold no node stay as they are. -/
theorem withoutFields_eq_self {fields : List (String × RawValue)}
    (others : ∀ f ∈ fields, f.1 ∉ names) (bare : ∀ f ∈ fields, f.2.IsBare) :
    withoutFields names fields = fields := by
  have hself : ∀ f ∈ fields, (f.1, f.2.without names) = f := by
    intro f hf
    rw [(bare f hf).without_eq]
  rw [withoutFields_eq, List.filter_eq_self.2 fun f hf => by simpa using others f hf,
    List.map_congr_left hself]
  exact List.map_id' fields

theorem attribute?_without (v : RawValue) : (v.without names).attribute? = v.attribute? := by
  cases v <;> rfl

end RawValue

theorem SortedMap.get?_without {α : Type} (m : SortedMap α) (key : String) :
    (m.without names).get? key = if key ∈ names then none else m.get? key :=
  lookup_filter_not_mem names m.entries key

/-- The fields of a name are deleted, or stay with what they hold. -/
theorem filter_withoutFields (fields : List (String × RawValue)) (key : String) :
    (RawValue.withoutFields names fields).filter (·.1 = key) =
      if key ∈ names then []
      else (fields.filter (·.1 = key)).map fun f => (f.1, f.2.without names) := by
  induction fields with
  | nil => simp [RawValue.withoutFields]
  | cons f rest ih =>
    obtain ⟨name, v⟩ := f
    by_cases hname : name ∈ names
    · rw [RawValue.withoutFields, if_pos hname, ih]
      by_cases hkey : name = key
      · rw [if_pos (hkey ▸ hname), if_pos (hkey ▸ hname)]
      · rw [List.filter_cons_of_neg (by simpa using hkey)]
    · rw [RawValue.withoutFields, if_neg hname]
      by_cases hkey : name = key
      · subst hkey
        rw [List.filter_cons_of_pos (by simp), List.filter_cons_of_pos (by simp), ih]
        simp only [if_neg hname, List.map_cons]
      · rw [List.filter_cons_of_neg (by simpa using hkey),
          List.filter_cons_of_neg (by simpa using hkey), ih]

/-- The attributes of a node depend on their own fields only. -/
theorem attributesOf_without (fields : List (String × RawValue)) :
    attributesOf (RawValue.withoutFields names fields) = (attributesOf fields).without names := by
  apply SortedMap.ext_get?
  intro key
  rw [SortedMap.get?_without, get?_attributesOf, get?_attributesOf, filter_withoutFields]
  split
  · rfl
  · rw [List.filterMap_map]
    congr 1
    exact List.filterMap_congr fun f _ => f.2.attribute?_without

/-! ## Numbering -/

/-- The node holds no children in the fields of these names. -/
def RawNode.BareUnder (names : List String) (r : RawNode) : Prop :=
  ∀ f ∈ r.fields, f.1 ∈ names → f.2.IsBare

namespace Numbered

theorem withoutList_append (a b : List (String × Numbered)) :
    withoutList names (a ++ b) = withoutList names a ++ withoutList names b := by
  induction a with
  | nil => rfl
  | cons c rest ih =>
    obtain ⟨field, child⟩ := c
    rw [List.cons_append, withoutList, withoutList, ih, List.cons_append]

end Numbered

/-- What numbering gives, without these attributes. -/
def withoutIn (names : List String) (out : List (String × Numbered) × NodeId) :
    List (String × Numbered) × NodeId :=
  (Numbered.withoutList names out.1, out.2)

theorem numberItems_cons (next : NodeId) (field : String) (item : RawValue)
    (rest : List RawValue) :
    numberItems next field (item :: rest) =
      let here := numberItem next field item
      let there := numberItems here.2 field rest
      (here.1 ++ there.1, there.2) := rfl

theorem numberFields_cons (next : NodeId) (field : String) (value : RawValue)
    (rest : List (String × RawValue)) :
    numberFields next ((field, value) :: rest) =
      let here := numberField next field value
      let there := numberFields here.2 rest
      (here.1 ++ there.1, there.2) := rfl

theorem numberField_of_isBare {v : RawValue} (h : v.IsBare) (next : NodeId) (field : String) :
    numberField next field v = ([], next) := by
  cases h <;> rfl

mutual

theorem numberField_without (next : NodeId) (field : String) :
    ∀ value : RawValue, (∀ r ∈ value.nodes, r.BareUnder names) →
      numberField next field (value.without names) =
        withoutIn names (numberField next field value)
  | .null, _ => rfl
  | .scalar _, _ => rfl
  | .node kind fields, h => by
    have hnodes : ∀ r ∈ RawNode.nodes ⟨kind, fields⟩, r.BareUnder names := h
    rw [RawNode.nodes_eq, List.forall_mem_cons] at hnodes
    have hbelow := numberFields_without (next + 1) fields hnodes.1 hnodes.2
    rw [RawValue.without, numberField, hbelow, attributesOf_without]
    rfl
  | .list items, h => numberItems_without next field items h

theorem numberItem_without (next : NodeId) (field : String) :
    ∀ item : RawValue, (∀ r ∈ (RawValue.list [item]).nodes, r.BareUnder names) →
      numberItem next field (item.without names) = withoutIn names (numberItem next field item)
  | .null, _ => rfl
  | .scalar _, _ => rfl
  | .node kind fields, h => by
    rw [RawValue.nodes_list_node, RawNode.nodes_eq, List.forall_mem_cons] at h
    have hbelow := numberFields_without (next + 1) fields h.1 h.2
    rw [RawValue.without, numberItem, hbelow, attributesOf_without]
    rfl
  | .list _, _ => rfl

theorem numberItems_without (next : NodeId) (field : String) :
    ∀ items : List RawValue, (∀ r ∈ (RawValue.list items).nodes, r.BareUnder names) →
      numberItems next field (RawValue.withoutItems names items) =
        withoutIn names (numberItems next field items)
  | [], _ => rfl
  | item :: rest, h => by
    rw [RawValue.nodes_list_cons, List.forall_mem_append] at h
    have hitem := numberItem_without next field item h.1
    have hrest := numberItems_without (numberItem next field item).2 field rest h.2
    simp only [RawValue.withoutItems, numberItems_cons, hitem, withoutIn, hrest,
      Numbered.withoutList_append]

theorem numberFields_without (next : NodeId) :
    ∀ fields : List (String × RawValue), (∀ f ∈ fields, f.1 ∈ names → f.2.IsBare) →
      (∀ r ∈ fields.flatMap (fun f => f.2.nodes), r.BareUnder names) →
      numberFields next (RawValue.withoutFields names fields) =
        withoutIn names (numberFields next fields)
  | [], _, _ => rfl
  | (name, value) :: rest, bare, below => by
    rw [List.forall_mem_cons] at bare
    rw [List.flatMap_cons, List.forall_mem_append] at below
    rw [RawValue.withoutFields]
    by_cases hname : name ∈ names
    · -- the field is deleted, and there was nothing to number in it
      have hrest := numberFields_without next rest bare.2 below.2
      rw [if_pos hname, hrest, numberFields_cons, numberField_of_isBare (bare.1 hname)]
      rfl
    · have hvalue := numberField_without next name value below.1
      have hrest := numberFields_without (numberField next name value).2 rest bare.2 below.2
      rw [if_neg hname]
      simp only [numberFields_cons, hvalue, withoutIn, hrest, Numbered.withoutList_append]

end

/-- **Numbering and deleting commute**, where no children are deleted. -/
theorem Numbering.node_without {n : Numbering} {raw : RawNode}
    (bare : ∀ r ∈ raw.nodes, r.BareUnder names) :
    n.node (raw.without names) = ((n.node raw).1.without names, (n.node raw).2) := by
  rw [RawNode.nodes_eq, List.forall_mem_cons] at bare
  have hfields := numberFields_without (n.assigned + 1) raw.fields bare.1 bare.2
  unfold Numbering.node
  rw [RawNode.without, hfields, attributesOf_without]
  rfl

/-! ## Flattening -/

/-- The subtree in the queue without these attributes. -/
def Queued.without (names : List String) (q : Queued) : Queued :=
  { q with subtree := q.subtree.without names }

/-- The visit without these attributes. -/
def Visit.without (names : List String) (v : Visit) : Visit :=
  { v with entry := v.entry.without names }

theorem queueChildren_without (id : NodeId) (children : List (String × Numbered)) :
    queueChildren id (Numbered.withoutList names children) =
      (queueChildren id children).map (Queued.without names) := by
  induction children with
  | nil => rfl
  | cons c rest ih =>
    obtain ⟨field, child⟩ := c
    rw [Numbered.withoutList, queueChildren, List.map_cons]
    exact congrArg (List.cons _) ih

theorem visitsFrom_without (queue : List Queued) :
    visitsFrom (queue.map (Queued.without names)) =
      (visitsFrom queue).map (Visit.without names) := by
  fun_induction visitsFrom queue with
  | case1 => rw [List.map_nil, visitsFrom, List.map_nil]
  | case2 parent scalar rest ih =>
    rw [List.map_cons, Queued.without, Numbered.without, visitsFrom, ih]
  | case3 parent entry children rest ih =>
    rw [List.map_append, ← queueChildren_without] at ih
    rw [List.map_cons, Queued.without, Numbered.without, visitsFrom, List.map_cons, ← ih]
    rfl

namespace NumberedNode

theorem visits_without (t : NumberedNode) :
    (t.without names).visits = t.visits.map (Visit.without names) :=
  visitsFrom_without [⟨none, t.toNumbered⟩]

theorem nodes_flatten_without (t : NumberedNode) :
    (t.without names).flatten.nodes = t.flatten.nodes.map (Entry.without names) := by
  show (t.without names).visits.map _ = (t.visits.map _).map _
  rw [visits_without, List.map_map, List.map_map]
  rfl

theorem links_flatten_without (t : NumberedNode) :
    (t.without names).flatten.links = t.flatten.links := by
  show (t.without names).visits.filterMap _ = t.visits.filterMap _
  rw [visits_without, List.filterMap_map]
  rfl

/-- Trees that are the same up to attributes have the same lists up to attributes. -/
theorem flatten_eq_of_without_eq {t u : NumberedNode} (h : t.without names = u.without names) :
    t.flatten.links = u.flatten.links ∧
      t.flatten.nodes.map (Entry.without names) = u.flatten.nodes.map (Entry.without names) := by
  constructor
  · calc
      t.flatten.links = (t.without names).flatten.links := t.links_flatten_without.symm
      _ = (u.without names).flatten.links := by rw [h]
      _ = u.flatten.links := u.links_flatten_without
  · rw [← nodes_flatten_without, h, nodes_flatten_without]

end NumberedNode

end SyntaxGraph
