import Mathlib.Data.List.Sort
import SyntaxGraph.NumberedTree.Numbering

/-!
# Listings by key

What a listing has under one key is its `filter` at that key. In a listing that repeats no key
this is at most one entry; of a listing that is collected in a map, the last entry counts
(`SortedMap.get?_ofList`). Two maps that agree on every key are equal (`SortedMap.ext_get?`), and a
map is rebuilt from its entries in any order (`SortedMap.ofList_eq_of_perm`).

The attributes of a node are collected in this way from its fields, so an attribute depends on
the fields of its own name only (`get?_attributesOf`).
-/

namespace SyntaxGraph

section

variable {α β : Type} [DecidableEq β]

/-- An item is the only one with its key when no key occurs twice. -/
theorem filter_key_eq_singleton {key : α → β} {l : List α} {a : α}
    (distinct : (l.map key).Nodup) (ha : a ∈ l) : l.filter (key · = key a) = [a] := by
  induction l with
  | nil => exact absurd ha List.not_mem_nil
  | cons b rest ih =>
    rw [List.map_cons, List.nodup_cons] at distinct
    rcases List.mem_cons.1 ha with rfl | ha
    · rw [List.filter_cons_of_pos (by simp), List.filter_eq_nil_iff.2 fun x hx => ?_]
      intro heq
      exact distinct.1 (List.mem_map.2 ⟨x, hx, by simpa using heq⟩)
    · have hne : ¬ key b = key a := fun heq => distinct.1 (List.mem_map.2 ⟨a, ha, heq.symm⟩)
      rw [List.filter_cons_of_neg (by simpa using hne), ih distinct.2 ha]

theorem filter_key_eq_nil {key : α → β} {l : List α} {b : β} (h : b ∉ l.map key) :
    l.filter (key · = b) = [] := by
  rw [List.filter_eq_nil_iff]
  intro a ha hb
  exact h (List.mem_map.2 ⟨a, ha, of_decide_eq_true hb⟩)

theorem nodup_eraseDups : ∀ l : List β, l.eraseDups.Nodup
  | [] => List.nodup_nil
  | b :: rest => by
    rw [List.eraseDups_cons, List.nodup_cons]
    constructor
    · intro hb
      have := List.mem_eraseDups.1 hb
      simp at this
    · exact nodup_eraseDups _
termination_by l => l.length
decreasing_by exact Nat.lt_succ_of_le (List.length_filter_le _ _)

/-- Sorting the items of a listing by their keys keeps all of them. -/
theorem flatMap_filter_key_perm (key : α → β) {keys : List β} (distinct : keys.Nodup)
    {l : List α} (hkeys : ∀ a ∈ l, key a ∈ keys) :
    (keys.flatMap fun k => l.filter (key · = k)).Perm l := by
  induction keys generalizing l with
  | nil =>
    rw [List.eq_nil_iff_forall_not_mem.2 fun a ha => List.not_mem_nil (hkeys a ha)]
    exact List.Perm.nil
  | cons k rest ih =>
    obtain ⟨hk, distinct⟩ := List.nodup_cons.1 distinct
    -- the items under the other keys are those that are not under the first
    have hothers : (rest.flatMap fun k' => l.filter (key · = k')) =
        rest.flatMap fun k' => (l.filter fun a => !decide (key a = k)).filter (key · = k') := by
      rw [List.flatMap_def, List.flatMap_def]
      congr 1
      refine List.map_congr_left fun k' hk' => ?_
      have hne : k' ≠ k := fun h => hk (h ▸ hk')
      rw [List.filter_filter]
      refine List.filter_congr fun a _ => ?_
      by_cases h : key a = k' <;> simp [h, hne]
    rw [List.flatMap_cons, hothers]
    refine (List.Perm.append_left _ (ih distinct fun a ha => ?_)).trans
      (List.filter_append_perm _ l)
    obtain ⟨ha, hne⟩ := List.mem_filter.1 ha
    exact (List.mem_cons.1 (hkeys a ha)).resolve_left (by simpa using hne)

/-- Leaving out some items leaves the others in the order in which they first occur. -/
theorem eraseDups_filter (p : β → Bool) :
    ∀ l : List β, (l.filter p).eraseDups = l.eraseDups.filter p
  | [] => rfl
  | b :: rest => by
    have ih := eraseDups_filter p (rest.filter fun a => !a == b)
    have hcomm : (rest.filter p).filter (fun a => !a == b) =
        (rest.filter fun a => !a == b).filter p := by
      rw [List.filter_filter, List.filter_filter]
      exact List.filter_congr fun a _ => Bool.and_comm _ _
    rw [List.eraseDups_cons]
    by_cases hb : p b
    · rw [List.filter_cons_of_pos hb, List.filter_cons_of_pos hb, List.eraseDups_cons, hcomm, ih]
    · -- what equals the item is left out with it
      have hrest : rest.filter p = (rest.filter fun a => !a == b).filter p := by
        rw [← hcomm, eq_comm, List.filter_eq_self]
        intro a ha
        have hne : a ≠ b := by
          rintro rfl
          exact hb (List.mem_filter.1 ha).2
        simpa using hne
      rw [List.filter_cons_of_neg hb, List.filter_cons_of_neg hb, hrest, ih]
termination_by l => l.length
decreasing_by exact Nat.lt_succ_of_le (List.length_filter_le _ _)

end

/-! ## Look-ups -/

section

variable {α β : Type} {l : List (String × α)} {key : String} {value : α}

/-- What is looked up is what is listed, when no key occurs twice. -/
theorem lookup_eq_some_iff_mem (distinct : (l.map (·.1)).Nodup) :
    l.lookup key = some value ↔ (key, value) ∈ l := by
  constructor
  · intro h
    obtain ⟨before, after, hl, -⟩ := List.lookup_eq_some_iff.1 h
    rw [hl]
    simp
  · intro h
    cases hlookup : l.lookup key with
    | none =>
      have hnone := List.lookup_eq_none_iff.1 hlookup (key, value) h
      simp at hnone
    | some other =>
      obtain ⟨before, after, hl, -⟩ := List.lookup_eq_some_iff.1 hlookup
      have hother : (key, other) ∈ l.filter (·.1 = key) := by
        rw [hl]
        simp
      rw [filter_key_eq_singleton distinct h, List.mem_singleton, Prod.mk.injEq] at hother
      rw [hother.2]

theorem lookup_eq_of_perm {l' : List (String × α)} (h : l.Perm l')
    (distinct : (l.map (·.1)).Nodup) (key : String) : l.lookup key = l'.lookup key := by
  have distinct' : (l'.map (·.1)).Nodup := (h.map (·.1)).nodup_iff.1 distinct
  ext value
  rw [lookup_eq_some_iff_mem distinct, lookup_eq_some_iff_mem distinct', h.mem_iff]

/-- Deleting entries by key leaves what other keys hold. -/
theorem lookup_filter_not_mem (names : List String) (l : List (String × α)) (key : String) :
    (l.filter fun e => e.1 ∉ names).lookup key = if key ∈ names then none else l.lookup key := by
  induction l with
  | nil => simp
  | cons e rest ih =>
    obtain ⟨k, v⟩ := e
    by_cases hk : k ∈ names
    · rw [List.filter_cons_of_neg (by simpa using hk), ih, SortedMap.lookup_cons_ite]
      by_cases hkey : key = k
      · rw [if_pos (hkey ▸ hk), if_pos (hkey ▸ hk)]
      · rw [if_neg hkey]
    · rw [List.filter_cons_of_pos (by simpa using hk), SortedMap.lookup_cons_ite,
        SortedMap.lookup_cons_ite, ih]
      by_cases hkey : key = k
      · rw [if_pos hkey, if_pos hkey, if_neg (hkey ▸ hk)]
      · rw [if_neg hkey, if_neg hkey]

theorem lookup_map_values (f : α → β) (l : List (String × α)) (key : String) :
    (l.map fun e => (e.1, f e.2)).lookup key = (l.lookup key).map f := by
  induction l with
  | nil => rfl
  | cons e rest ih =>
    obtain ⟨k, v⟩ := e
    rw [List.map_cons, SortedMap.lookup_cons_ite, SortedMap.lookup_cons_ite, ih]
    split <;> rfl

end

/-! ## Maps -/

namespace SortedMap

variable {α : Type} {m n : SortedMap α} {key : String} {value : α}

theorem nodup_keys (m : SortedMap α) : (m.entries.map (·.1)).Nodup := by
  rw [List.Nodup, List.pairwise_map]
  refine m.sorted.imp fun {a b} hlt heq => ?_
  rw [heq] at hlt
  exact String.lt_irrefl _ hlt

/-- A map has one entry under a key that it knows. -/
theorem filter_entries (h : m.get? key = some value) :
    m.entries.filter (·.1 = key) = [(key, value)] :=
  filter_key_eq_singleton m.nodup_keys ((lookup_eq_some_iff_mem m.nodup_keys).1 h)

theorem mem_entries_iff : (key, value) ∈ m.entries ↔ m.get? key = some value :=
  (lookup_eq_some_iff_mem m.nodup_keys).symm

/-- Maps that agree on every key are equal. -/
theorem ext_get? (h : ∀ key, m.get? key = n.get? key) : m = n := by
  have hperm : m.entries.Perm n.entries := by
    rw [List.perm_ext_iff_of_nodup m.nodup_keys.of_map n.nodup_keys.of_map]
    rintro ⟨key, value⟩
    rw [mem_entries_iff, mem_entries_iff, h key]
  apply SortedMap.ext
  refine hperm.eq_of_pairwise ?_ m.sorted n.sorted
  intro a b _ _ hab hba
  exact absurd hba (String.lt_asymm hab)

/-- Of several entries with one key the last counts. -/
theorem get?_ofList (l : List (String × α)) (key : String) :
    (ofList l).get? key = (l.filter (·.1 = key)).getLast?.map (·.2) := by
  have hfold : ∀ m : SortedMap α, (l.foldl (fun m e => m.insert e.1 e.2) m).get? key =
      ((l.filter (·.1 = key)).getLast?.map (·.2)).or (m.get? key) := by
    induction l with
    | nil =>
      intro m
      rfl
    | cons e rest ih =>
      intro m
      rw [List.foldl_cons, ih, get?_insert]
      by_cases hkey : e.1 = key
      · rw [if_pos hkey.symm, List.filter_cons_of_pos (by simpa using hkey), List.getLast?_cons]
        cases (rest.filter (·.1 = key)).getLast? <;> rfl
      · rw [if_neg (Ne.symm hkey), List.filter_cons_of_neg (by simpa using hkey)]
  rw [ofList, hfold]
  exact Option.or_none

theorem mem_of_mem_entries_ofList {l : List (String × α)} {e : String × α}
    (h : e ∈ (ofList l).entries) : e ∈ l := by
  obtain ⟨key, value⟩ := e
  rw [mem_entries_iff, get?_ofList, Option.map_eq_some_iff] at h
  obtain ⟨e, hlast, rfl⟩ := h
  obtain ⟨he, hkey⟩ := List.mem_filter.1 (List.mem_of_getLast? hlast)
  rw [← of_decide_eq_true hkey]
  exact he

theorem insertEntry_perm {key : String} (value : α) {l : List (String × α)}
    (new : key ∉ l.map (·.1)) : (insertEntry key value l).Perm ((key, value) :: l) := by
  induction l with
  | nil => exact .refl _
  | cons e rest ih =>
    obtain ⟨k, v⟩ := e
    rw [List.map_cons, List.mem_cons, not_or] at new
    rw [insertEntry, if_neg new.1]
    split
    · exact .refl _
    · exact ((ih new.2).cons (k, v)).trans (.swap _ _ _)

/-- A map lists what was collected, if no key was given twice. -/
theorem entries_ofList_perm {l : List (String × α)} (distinct : (l.map (·.1)).Nodup) :
    (ofList l).entries.Perm l := by
  have hfold : ∀ m : SortedMap α, ((m.entries ++ l).map (·.1)).Nodup →
      (l.foldl (fun m e => m.insert e.1 e.2) m).entries.Perm (m.entries ++ l) := by
    induction l with
    | nil =>
      intro m _
      rw [List.append_nil]
      exact .refl _
    | cons e rest ih =>
      intro m hm
      have hperm : ((m.insert e.1 e.2).entries ++ rest).Perm (m.entries ++ e :: rest) := by
        have hnew : e.1 ∉ m.entries.map (·.1) := by
          rw [List.map_append, List.map_cons, List.nodup_append] at hm
          intro hmem
          exact hm.2.2 _ hmem _ List.mem_cons_self rfl
        exact ((insertEntry_perm e.2 hnew).append_right rest).trans List.perm_middle.symm
      rw [List.foldl_cons]
      refine (ih ?_ (m.insert e.1 e.2) ((hperm.map (·.1)).nodup_iff.2 hm)).trans hperm
      exact (List.nodup_cons.1 distinct).2
  exact hfold ∅ distinct

/-- A map is rebuilt from its entries in any order. -/
theorem ofList_eq_of_perm {m : SortedMap α} {l : List (String × α)} (h : l.Perm m.entries) :
    ofList l = m := by
  have distinct : (l.map (·.1)).Nodup := (h.map (·.1)).nodup_iff.2 m.nodup_keys
  apply SortedMap.ext
  refine ((entries_ofList_perm distinct).trans h).eq_of_pairwise ?_ (ofList l).sorted m.sorted
  intro a b _ _ hab hba
  exact absurd hba (String.lt_asymm hab)

end SortedMap

/-! ## Attributes -/

/-- What a field gives as an attribute, if it gives one. -/
def RawValue.attribute? : RawValue → Option (Option Scalar)
  | .null => some none
  | .scalar s => some (some s)
  | _ => none

theorem attributesOf_eq (fields : List (String × RawValue)) :
    attributesOf fields =
      SortedMap.ofList (fields.filterMap fun f => f.2.attribute?.map (f.1, ·)) := by
  unfold attributesOf
  congr 1
  refine List.filterMap_congr fun f _ => ?_
  obtain ⟨name, value⟩ := f
  cases value <;> rfl

/-- An attribute comes from the last field of its name that gives one. -/
theorem get?_attributesOf (fields : List (String × RawValue)) (name : String) :
    (attributesOf fields).get? name =
      ((fields.filter (·.1 = name)).filterMap (·.2.attribute?)).getLast? := by
  have hfilter : (fields.filterMap fun f => f.2.attribute?.map (f.1, ·)).filter (·.1 = name) =
      ((fields.filter (·.1 = name)).filterMap (·.2.attribute?)).map (name, ·) := by
    induction fields with
    | nil => rfl
    | cons f rest ih =>
      obtain ⟨k, value⟩ := f
      by_cases hk : k = name
      · subst hk
        cases hvalue : value.attribute? <;> simp [hvalue, ih]
      · cases hvalue : value.attribute? <;> simp [hvalue, hk, ih]
  rw [attributesOf_eq, SortedMap.get?_ofList, hfilter, List.getLast?_map]
  cases ((fields.filter (·.1 = name)).filterMap (·.2.attribute?)).getLast? <;> rfl

end SyntaxGraph
