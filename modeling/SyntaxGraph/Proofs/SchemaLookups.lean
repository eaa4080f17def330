import SyntaxGraph.Grammar.Schema
import SyntaxGraph.Proofs.Keys

/-!
# What a schema knows of a kind

A schema looks a kind up among the named types of a listing and takes the last of that kind
(`GrammarSchema.node?_ofTypes`). What it keeps of this type, its fields in the order of their names
and a shape for each place, is said by `NodeType.DescribedBy` without the functions that compute it.

So a schema does not see the anonymous types of a listing, nor in which order types of different
kinds stand, nor in which order a type lists its fields if none of them is listed twice. Since a
schema is determined by its look-ups, each of these is an equation between schemas.
-/

namespace SyntaxGraph

/-! ## Shapes -/

/-- A place without named types has tokens only; in any other there is one node, or there are
several. -/
structure ChildSpec.HasShape (spec : ChildSpec) (shape : FieldShape) : Prop where
  scalar : shape = .scalar ↔ true ∉ spec.namedTypes
  childList : shape = .childList ↔ true ∈ spec.namedTypes ∧ spec.multiple = true
  child : shape = .child ↔ true ∈ spec.namedTypes ∧ spec.multiple = false

theorem ChildSpec.hasShape_shape (spec : ChildSpec) : spec.HasShape spec.shape := by
  have htokens : spec.namedTypes.all (!·) = true ↔ true ∉ spec.namedTypes := by
    simp [List.all_eq_true]
  rw [shape]
  split
  · rename_i h
    have hnone := htokens.1 h
    exact ⟨by simp [hnone], by simp [hnone], by simp [hnone]⟩
  · rename_i h
    have hsome : true ∈ spec.namedTypes := by
      rwa [htokens, not_not] at h
    split
    · rename_i hmultiple
      exact ⟨by simp [hsome], by simp [hsome, hmultiple], by simp [hmultiple]⟩
    · rename_i hmultiple
      exact ⟨by simp [hsome], by simp [hmultiple], by simp [hsome, hmultiple]⟩

/-! ## Maps that are collected -/

namespace SortedMap

variable {α : Type} {l l' : List (String × α)}

theorem mem_keys_ofList {key : String} : key ∈ (ofList l).keys ↔ key ∈ l.map (·.1) := by
  constructor
  · intro h
    obtain ⟨e, he, hkey⟩ := List.mem_map.1 h
    exact List.mem_map.2 ⟨e, mem_of_mem_entries_ofList he, hkey⟩
  · intro h
    obtain ⟨e, he, hkey⟩ := List.mem_map.1 h
    have hmem : e ∈ l.filter (·.1 = key) := List.mem_filter.2 ⟨he, decide_eq_true hkey⟩
    obtain ⟨last, hlast⟩ := Option.isSome_iff_exists.1
      (List.getLast?_isSome.2 (List.ne_nil_of_mem hmem))
    have hget : (ofList l).get? key = some last.2 := by
      rw [get?_ofList, hlast, Option.map_some]
    exact List.mem_map.2 ⟨_, mem_entries_iff.2 hget, rfl⟩

/-- A map has as many entries as there were different keys. -/
theorem size_ofList (l : List (String × α)) : (ofList l).size = (l.map (·.1)).eraseDups.length := by
  have hperm : (ofList l).keys.Perm (l.map (·.1)).eraseDups := by
    refine (List.perm_ext_iff_of_nodup (ofList l).nodup_keys (nodup_eraseDups _)).2 fun key => ?_
    show key ∈ (ofList l).keys ↔ _
    rw [mem_keys_ofList, List.mem_eraseDups]
  rw [← hperm.length_eq, keys, List.length_map, size]

/-- What is collected without a key twice can be collected in any order. -/
theorem ofList_eq_ofList_of_perm (h : l'.Perm l) (distinct : (l.map (·.1)).Nodup) :
    ofList l' = ofList l :=
  ofList_eq_of_perm (h.trans (entries_ofList_perm distinct).symm)

end SortedMap

/-! ## The schema of a type -/

/-- The schema has the fields of the type in the order of their names, each once and with the shape
that the type says last, and it has children without a field if the type has them. -/
structure NodeType.DescribedBy (t : NodeType) (s : NodeSchema) : Prop where
  sorted : s.fields.entries.Pairwise fun a b => a.1 < b.1
  distinct : s.fields.keys.Nodup
  names : ∀ name, name ∈ s.fields.keys ↔ name ∈ t.fields.map (·.1)
  field : ∀ before name spec after, t.fields = before ++ (name, spec) :: after →
    name ∉ after.map (·.1) → ∃ shape, s.fields.get? name = some shape ∧ spec.HasShape shape
  noChildren : s.children = none ↔ t.children = none
  children : ∀ spec shape, t.children = some spec → s.children = some shape → spec.HasShape shape

namespace NodeType

variable {t u : NodeType}

theorem describedBy_schema (t : NodeType) : t.DescribedBy t.schema where
  sorted := t.schema.fields.sorted
  distinct := t.schema.fields.nodup_keys
  names name := by
    rw [schema, SortedMap.mem_keys_ofList, List.map_map]
    rfl
  field before name spec after hfields hlast := by
    have hafter : (after.map fun f => (f.1, f.2.shape)).filter (·.1 = name) = [] := by
      apply filter_key_eq_nil
      rwa [List.map_map]
    refine ⟨spec.shape, ?_, spec.hasShape_shape⟩
    rw [schema, SortedMap.get?_ofList, hfields, List.map_append, List.map_cons, List.filter_append,
      List.filter_cons_of_pos (by simp), hafter, List.getLast?_concat]
    rfl
  noChildren := Option.map_eq_none_iff
  children spec shape ht hs := by
    rw [schema, ht] at hs
    cases hs
    exact spec.hasShape_shape

/-- The order of fields that are listed once is not seen. -/
theorem schema_eq_of_perm (hfields : u.fields.Perm t.fields) (distinct : (t.fields.map (·.1)).Nodup)
    (hchildren : u.children = t.children) : u.schema = t.schema := by
  have hkeys : ((t.fields.map fun f => (f.1, f.2.shape)).map (·.1)).Nodup := by
    rwa [List.map_map]
  rw [schema, schema, hchildren, SortedMap.ofList_eq_ofList_of_perm (hfields.map _) hkeys]

end NodeType

/-! ## The schema of a listing -/

namespace GrammarSchema

variable {types before after : List NodeType} {t u : NodeType}

/-- Of the named types of a kind the last counts. -/
theorem node?_ofTypes (types : List NodeType) (kind : String) :
    (ofTypes types).node? kind =
      (types.filter fun t => t.isNamed && t.kind = kind).getLast?.map NodeType.schema := by
  have hfilter : ((types.filter (·.isNamed)).map fun t => (t.kind, t.schema)).filter (·.1 = kind) =
      (types.filter fun t => t.isNamed && t.kind = kind).map fun t => (t.kind, t.schema) := by
    rw [List.filter_map, List.filter_filter]
    refine congrArg _ (List.filter_congr fun t _ => ?_)
    exact Bool.and_comm _ _
  rw [node?, ofTypes, SortedMap.get?_ofList, hfilter, List.getLast?_map, Option.map_map]
  rfl

theorem node?_ofTypes_isSome_iff {kind : String} :
    ((ofTypes types).node? kind).isSome ↔ ∃ t ∈ types, t.isNamed = true ∧ t.kind = kind := by
  rw [node?_ofTypes, Option.isSome_map, List.getLast?_isSome, ne_eq, List.filter_eq_nil_iff]
  simp

theorem node?_ofTypes_last (hnamed : t.isNamed = true)
    (hlast : ∀ u ∈ after, u.isNamed = true → u.kind ≠ t.kind) :
    (ofTypes (before ++ t :: after)).node? t.kind = some t.schema := by
  have hafter : (after.filter fun u => u.isNamed && u.kind = t.kind) = [] := by
    rw [List.filter_eq_nil_iff]
    intro u hu
    simpa using hlast u hu
  rw [node?_ofTypes, List.filter_append, List.filter_cons_of_pos (by simp [hnamed]), hafter,
    List.getLast?_concat]
  rfl

theorem size_ofTypes (types : List NodeType) :
    (ofTypes types).size = ((types.filter (·.isNamed)).map (·.kind)).eraseDups.length := by
  rw [size, ofTypes, SortedMap.size_ofList, List.map_map]
  rfl

/-- A schema is its look-ups. -/
theorem ext_node? {schema other : GrammarSchema}
    (h : ∀ kind, schema.node? kind = other.node? kind) : schema = other := by
  cases schema
  cases other
  exact congrArg GrammarSchema.mk (SortedMap.ext_get? h)

/-- An anonymous type is not seen. -/
theorem ofTypes_append_anonymous (h : t.isNamed = false) :
    ofTypes (before ++ t :: after) = ofTypes (before ++ after) := by
  rw [ofTypes, ofTypes, List.filter_append, List.filter_append,
    List.filter_cons_of_neg (by simp [h])]

/-- The order of two types of different kinds is not seen. -/
theorem ofTypes_append_swap (h : t.kind ≠ u.kind) :
    ofTypes (before ++ t :: u :: after) = ofTypes (before ++ u :: t :: after) := by
  refine ext_node? fun kind => ?_
  -- at most one of the two has the kind
  have hpair : ([t, u].filter fun v => v.isNamed && v.kind = kind) =
      [u, t].filter fun v => v.isNamed && v.kind = kind := by
    by_cases ht : t.kind = kind
    · have hu : u.kind ≠ kind := fun hu => h (ht.trans hu.symm)
      simp [ht, hu, List.filter_cons]
    · simp [ht, List.filter_cons]
  have hsplit : ∀ a b : NodeType, before ++ a :: b :: after = before ++ ([a, b] ++ after) :=
    fun _ _ => rfl
  rw [node?_ofTypes, node?_ofTypes, hsplit, hsplit, List.filter_append, List.filter_append, hpair,
    ← List.filter_append, ← List.filter_append]

/-- Of a type only its kind, whether it is named, and its schema are seen. -/
theorem ofTypes_append_replace (hkind : u.kind = t.kind) (hnamed : u.isNamed = t.isNamed)
    (hschema : u.schema = t.schema) :
    ofTypes (before ++ t :: after) = ofTypes (before ++ u :: after) := by
  rw [ofTypes, ofTypes, List.filter_append, List.filter_append, List.filter_cons,
    List.filter_cons, hnamed]
  split
  · rw [List.map_append, List.map_append, List.map_cons, List.map_cons, hkind, hschema]
  · rfl

end GrammarSchema

end SyntaxGraph
