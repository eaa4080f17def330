import SyntaxGraph.Json.Record
import SyntaxGraph.SortedMap

/-!
# What stands in a record

`Json.Holds` says what a record has under a key, by the member of an object or by the place of an
item in an array, and `Json.IsRecord` what a record has under each of its keys. Neither mentions how
records are looked up; `Json.isRecord_iff` ties them to that.
-/

namespace SyntaxGraph

/-- The item of an array that stands for a key. The array is long enough for the keys that it must
have, and has no items without a key. -/
structure ItemFor {α : Type} (leading trailing : List String) (items : List α) (key : String)
    (v : α) : Prop where
  enough : leading.length ≤ items.length
  room : items.length ≤ (leading ++ trailing).length
  place : ∃ i : Nat, (leading ++ trailing)[i]? = some key ∧ items[i]? = some v

/-- In keys with values, none of them twice, a value stands at the place of its key. -/
theorem lookup_zip_eq_some_iff {α : Type} {names : List String} (distinct : names.Nodup)
    {items : List α} {key : String} {v : α} :
    (names.zip items).lookup key = some v ↔
      ∃ i : Nat, names[i]? = some key ∧ items[i]? = some v := by
  induction names generalizing items with
  | nil => simp
  | cons name names ih =>
    obtain ⟨hnew, hdistinct⟩ := List.nodup_cons.1 distinct
    cases items with
    | nil => simp
    | cons item items =>
      rw [List.zip_cons_cons, SortedMap.lookup_cons_ite]
      split
      · rename_i heq
        subst heq
        constructor
        · intro hitem
          exact ⟨0, rfl, hitem⟩
        · rintro ⟨i | i, hname, hitem⟩
          · exact hitem
          · have hname : names[i]? = some key := hname
            exact absurd (List.mem_of_getElem? hname) hnew
      · rename_i hne
        rw [ih hdistinct]
        constructor
        · rintro ⟨i, hname, hitem⟩
          exact ⟨i + 1, hname, hitem⟩
        · rintro ⟨i | i, hname, hitem⟩
          · cases hname
            exact absurd rfl hne
          · exact ⟨i, hname, hitem⟩

theorem RecordKeys.lookup_label?_eq_some_iff {α : Type} {keys : RecordKeys} {items : List α}
    {key : String} {v : α} :
    (keys.label? items).bind (·.lookup key) = some v ↔
      ItemFor keys.leading keys.trailing items key v := by
  have hlookup : (keys.all.zip items).lookup key = some v ↔
      ∃ i : Nat, keys.all[i]? = some key ∧ items[i]? = some v :=
    lookup_zip_eq_some_iff keys.distinct
  rw [label?]
  split
  · rename_i hlength
    rw [Option.bind_some]
    exact hlookup.trans ⟨fun place => ⟨hlength.1, hlength.2, place⟩, ItemFor.place⟩
  · rename_i hlength
    rw [Option.bind_none]
    constructor
    · intro h
      cases h
    · intro h
      exact absurd ⟨h.enough, h.room⟩ hlength

namespace Json

/-- The value stands under the key of a record with these keys. -/
inductive Holds (leading trailing : List String) : Json → String → Json → Prop
  | member {members : List (String × Json)} {key : String} {v : Json}
      (h : members.lookup key = some v) : Holds leading trailing (.object members) key v
  | item {items : List Json} {key : String} {v : Json} (h : ItemFor leading trailing items key v) :
      Holds leading trailing (.array items) key v

theorem under?_eq_some_iff {keys : RecordKeys} {key : String} {j v : Json} :
    j.under? keys key = some v ↔ j.Holds keys.leading keys.trailing key v := by
  cases j with
  | object members => exact ⟨.member, fun | .member h => h⟩
  | array items =>
    exact RecordKeys.lookup_label?_eq_some_iff.trans ⟨.item, fun | .item h => h⟩
  | _ => exact iff_of_false nofun nofun

/-- The value is a record that has such a value under each leading key, and under the trailing keys
has such values or nothing. -/
structure IsRecord (leading trailing : List (String × (Json → Prop))) (j : Json) : Prop where
  present : ∀ f ∈ leading, ∃ v, j.Holds (leading.map (·.1)) (trailing.map (·.1)) f.1 v ∧ f.2 v
  optional : ∀ f ∈ trailing, ∀ v, j.Holds (leading.map (·.1)) (trailing.map (·.1)) f.1 v → f.2 v

theorem isRecord_iff (keys : RecordKeys) {leading trailing : List (String × (Json → Prop))}
    (hleading : leading.map (·.1) = keys.leading) (htrailing : trailing.map (·.1) = keys.trailing)
    {j : Json} :
    j.IsRecord leading trailing ↔
      (∀ f ∈ leading, ∃ v, j.under? keys f.1 = some v ∧ f.2 v) ∧
        ∀ f ∈ trailing, ∀ v, j.under? keys f.1 = some v → f.2 v := by
  simp only [under?_eq_some_iff, ← hleading, ← htrailing]
  exact ⟨fun h => ⟨h.present, h.optional⟩, fun ⟨h, h'⟩ => ⟨h, h'⟩⟩

end Json

end SyntaxGraph
