import Mathlib.Data.List.Perm.Basic
import SyntaxGraph.Json.Record
import SyntaxGraph.Proofs.Keys

/-!
# Members in another order

A value can be handed out as it is written or with the members of every object in key order. Both
are *rearrangements*: in every object the members are put in some order, and nothing else changes.
What stands under a key does not depend on the order, if no key occurs twice.

Main statements: `rearranges_id` and `rearranges_sortKeys`, for the two forms, and
`Rearranges.under?`.
-/

namespace SyntaxGraph

namespace Json

/-- In every object the members are put in some order. -/
structure Rearranges (f : Json → Json) : Prop where
  null : f .null = .null
  bool : ∀ b, f (.bool b) = .bool b
  number : ∀ n, f (.number n) = .number n
  string : ∀ s, f (.string s) = .string s
  array : ∀ items, f (.array items) = .array (items.map f)
  object : ∀ members, (members.map (·.1)).Nodup →
    ∃ members' : List (String × Json), members'.Perm members ∧
      f (.object members) = .object (members'.map fun m => (m.1, f m.2))

theorem rearranges_id : Rearranges id where
  null := rfl
  bool _ := rfl
  number _ := rfl
  string _ := rfl
  array items := by rw [List.map_id]; rfl
  object members _ := ⟨members, .refl _, by simp⟩

theorem sortKeysItems_eq (items : List Json) : sortKeysItems items = items.map sortKeys := by
  induction items with
  | nil => rfl
  | cons item rest ih => rw [sortKeysItems, ih, List.map_cons]

theorem sortKeysMembers_eq (members : List (String × Json)) :
    sortKeysMembers members = members.map fun m => (m.1, m.2.sortKeys) := by
  induction members with
  | nil => rfl
  | cons m rest ih => rw [sortKeysMembers, ih, List.map_cons]

theorem rearranges_sortKeys : Rearranges sortKeys where
  null := rfl
  bool _ := rfl
  number _ := rfl
  string _ := rfl
  array items := by rw [sortKeys, sortKeysItems_eq]
  object members distinct := by
    rw [sortKeys, sortKeysMembers_eq]
    have hkeys : ((members.map fun m => (m.1, m.2.sortKeys)).map (·.1)).Nodup := by
      rwa [List.map_map]
    have hperm := SortedMap.entries_ofList_perm hkeys
    rw [← congrFun₂ (List.eq_map_comp_perm _)] at hperm
    obtain ⟨members', hentries, hperm⟩ := hperm
    exact ⟨members', hperm, congrArg Json.object hentries⟩

/-- Putting members in key order keeps all keys. -/
theorem exists_sortKeys_object {members : List (String × Json)}
    (distinct : (members.map (·.1)).Nodup) :
    ∃ members', (Json.object members).sortKeys = .object members' ∧
      (members'.map (·.1)).Perm (members.map (·.1)) := by
  obtain ⟨members', hperm, heq⟩ := rearranges_sortKeys.object members distinct
  refine ⟨_, heq, ?_⟩
  rw [List.map_map]
  exact hperm.map (·.1)

theorem Rearranges.under? {f : Json → Json} (hf : Rearranges f) (members : List (String × Json))
    (distinct : (members.map (·.1)).Nodup) (keys : RecordKeys) (key : String) :
    (f (.object members)).under? keys key = (members.lookup key).map f := by
  obtain ⟨members', hperm, heq⟩ := hf.object members distinct
  rw [heq]
  show (members'.map fun m => (m.1, f m.2)).lookup key = _
  rw [lookup_map_values, ← lookup_eq_of_perm hperm.symm distinct]

end Json

end SyntaxGraph
