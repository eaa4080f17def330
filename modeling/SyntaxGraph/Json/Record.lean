import SyntaxGraph.Json.Basic

/-!
# Records

A record has a value under each of its keys. It is written as an object, where the keys stand in
any order and others may stand among them, or as an array of the values in the order of the keys.
The keys that come last may have a default, and an array can end before them.
-/

namespace SyntaxGraph

/-- The keys of a record in their order. -/
structure RecordKeys where
  /-- an array has a value for each of these -/
  leading : List String
  /-- an array can end before any of these -/
  trailing : List String := []
  distinct : (leading ++ trailing).Nodup := by decide

namespace RecordKeys

def all (keys : RecordKeys) : List String := keys.leading ++ keys.trailing

/-- The items of an array under the keys of a record. -/
def label? {α : Type} (keys : RecordKeys) (items : List α) : Option (List (String × α)) :=
  if keys.leading.length ≤ items.length ∧ items.length ≤ keys.all.length then
    some (keys.all.zip items)
  else none

theorem mem_of_label? {α : Type} {keys : RecordKeys} {items : List α} {members : List (String × α)}
    (h : keys.label? items = some members) {m : String × α} (hm : m ∈ members) : m.2 ∈ items := by
  rw [label?] at h
  split at h
  · cases h
    exact (List.of_mem_zip hm).2
  · cases h

end RecordKeys

namespace Json

variable {keys : RecordKeys} {j v : Json} {key : String}

/-- The values of a record with their keys. -/
def members? (keys : RecordKeys) : Json → Option (List (String × Json))
  | .object members => some members
  | .array items => keys.label? items
  | _ => none

/-- What stands under a key of a record. -/
def under? (keys : RecordKeys) (key : String) (j : Json) : Option Json :=
  (j.members? keys).bind (·.lookup key)

theorem mem_of_under? (h : j.under? keys key = some v) :
    (∃ members, j = .object members ∧ (key, v) ∈ members) ∨
      ∃ items, j = .array items ∧ v ∈ items := by
  obtain ⟨members, hmembers, hlookup⟩ := Option.bind_eq_some_iff.1 h
  obtain ⟨before, after, hsplit, -⟩ := List.lookup_eq_some_iff.1 hlookup
  have hmem : (key, v) ∈ members := by simp [hsplit]
  cases j with
  | object ms =>
    cases hmembers
    exact .inl ⟨members, rfl, hmem⟩
  | array items => exact .inr ⟨items, rfl, RecordKeys.mem_of_label? hmembers hmem⟩
  | _ => cases hmembers

theorem sizeOf_lt_of_under? (h : j.under? keys key = some v) : sizeOf v < sizeOf j := by
  rcases mem_of_under? h with ⟨members, rfl, hmem⟩ | ⟨items, rfl, hmem⟩
  · have := List.sizeOf_lt_of_mem hmem
    simp only [Prod.mk.sizeOf_spec, object.sizeOf_spec] at this ⊢
    omega
  · have := List.sizeOf_lt_of_mem hmem
    simp only [array.sizeOf_spec]
    omega

end Json

end SyntaxGraph
