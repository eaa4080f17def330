import Mathlib.Data.List.Forall2
import Mathlib.Data.List.Perm.Basic

/-!
# Steps that can fail

What a chain of steps answers, said of its steps: one step after another, and one step for every
item of a list. The first failure ends the chain.
-/

namespace SyntaxGraph

variable {ε α β : Type}

theorem bind_eq_ok {x : Except ε α} {f : α → Except ε β} {b : β} :
    (x >>= f) = .ok b ↔ ∃ a, x = .ok a ∧ f a = .ok b := by
  cases x <;> simp [bind, Except.bind]

theorem bind_eq_error {x : Except ε α} {f : α → Except ε β} {e : ε} :
    (x >>= f) = .error e ↔ x = .error e ∨ ∃ a, x = .ok a ∧ f a = .error e := by
  cases x <;> simp [bind, Except.bind]

theorem map_eq_ok_iff {f : α → β} {x : Except ε α} {b : β} :
    x.map f = .ok b ↔ ∃ a, x = .ok a ∧ f a = b := by
  cases x <;> simp [Except.map]

theorem mapError_eq_ok_iff {δ : Type} {f : ε → δ} {x : Except ε α} {a : α} :
    x.mapError f = .ok a ↔ x = .ok a := by
  cases x <;> simp [Except.mapError]

/-- A walk over a list succeeds exactly if it does at every item. -/
theorem mapM_eq_ok_iff {f : α → Except ε β} {l : List α} {out : List β} :
    l.mapM f = .ok out ↔ List.Forall₂ (fun a b => f a = .ok b) l out := by
  induction l generalizing out with
  | nil =>
    rw [List.mapM_nil, List.forall₂_nil_left_iff]
    show Except.ok [] = .ok out ↔ _
    rw [Except.ok.injEq, eq_comm]
  | cons a rest ih =>
    rw [List.mapM_cons, List.forall₂_cons_left_iff, bind_eq_ok]
    refine exists_congr fun b => ?_
    rw [bind_eq_ok]
    constructor
    · rintro ⟨ha, bs, hrest, hout⟩
      cases hout
      exact ⟨bs, ha, ih.1 hrest, rfl⟩
    · rintro ⟨bs, ha, hrest, rfl⟩
      exact ⟨ha, bs, ih.2 hrest, rfl⟩

theorem exists_forall₂_iff {R : α → β → Prop} {l : List α} :
    (∃ out, List.Forall₂ R l out) ↔ ∀ a ∈ l, ∃ b, R a b := by
  induction l with
  | nil => simp
  | cons a rest ih =>
    rw [List.forall_mem_cons, ← ih]
    constructor
    · rintro ⟨_ | ⟨b, out⟩, h⟩
      · cases h
      · obtain ⟨hab, hrest⟩ := List.forall₂_cons.1 h
        exact ⟨⟨b, hab⟩, out, hrest⟩
    · rintro ⟨⟨b, hab⟩, out, hrest⟩
      exact ⟨b :: out, .cons hab hrest⟩

theorem exists_mapM_eq_ok_iff {f : α → Except ε β} {l : List α} :
    (∃ out, l.mapM f = .ok out) ↔ ∀ a ∈ l, ∃ b, f a = .ok b := by
  simp only [mapM_eq_ok_iff, exists_forall₂_iff]

/-- Listings are related through a third one exactly if their items are related through some
item. -/
theorem exists_forall₂_comp_iff {γ : Type} {R : α → β → Prop} {S : β → γ → Prop} {as : List α}
    {cs : List γ} :
    (∃ bs, List.Forall₂ R as bs ∧ List.Forall₂ S bs cs) ↔
      List.Forall₂ (fun a c => ∃ b, R a b ∧ S b c) as cs := by
  constructor
  · rintro ⟨bs, hR, hS⟩
    induction hR generalizing cs with
    | nil =>
      cases hS
      exact .nil
    | cons h _ ih =>
      cases hS with
      | cons h' hS => exact .cons ⟨_, h, h'⟩ (ih hS)
  · intro h
    induction h with
    | nil => exact ⟨[], .nil, .nil⟩
    | cons h _ ih =>
      obtain ⟨b, hR, hS⟩ := h
      obtain ⟨bs, hRs, hSs⟩ := ih
      exact ⟨b :: bs, .cons hR hRs, .cons hS hSs⟩

theorem map_eq_map_of_forall₂ {γ : Type} {R : α → β → Prop} {f : α → γ} {g : β → γ}
    (agree : ∀ a b, R a b → f a = g b) {l : List α} {out : List β} (h : List.Forall₂ R l out) :
    l.map f = out.map g := by
  induction h with
  | nil => rfl
  | cons hab _ ih => rw [List.map_cons, List.map_cons, agree _ _ hab, ih]

/-- What a walk gives comes apart where the list does. -/
theorem forall₂_append_iff {R : α → β → Prop} {before after : List α} {out : List β} :
    List.Forall₂ R (before ++ after) out ↔
      ∃ x y, List.Forall₂ R before x ∧ List.Forall₂ R after y ∧ x ++ y = out := by
  constructor
  · intro h
    induction before generalizing out with
    | nil => exact ⟨[], out, .nil, h, rfl⟩
    | cons a rest ih =>
      obtain ⟨b, l, hb, hl, rfl⟩ := List.forall₂_cons_left_iff.1 h
      obtain ⟨x, y, hx, hy, rfl⟩ := ih hl
      exact ⟨b :: x, y, .cons hb hx, hy, rfl⟩
  · rintro ⟨x, y, hx, hy, rfl⟩
    exact List.rel_append hx hy

theorem forall₂_middle_iff {R : α → β → Prop} {before after : List α} {a : α} {out : List β} :
    List.Forall₂ R (before ++ a :: after) out ↔
      ∃ x b y, List.Forall₂ R before x ∧ R a b ∧ List.Forall₂ R after y ∧ x ++ b :: y = out := by
  rw [forall₂_append_iff]
  constructor
  · rintro ⟨x, l, hx, hl, rfl⟩
    obtain ⟨b, y, hb, hy, rfl⟩ := List.forall₂_cons_left_iff.1 hl
    exact ⟨x, b, y, hx, hb, hy, rfl⟩
  · rintro ⟨x, b, y, hx, hb, hy, rfl⟩
    exact ⟨x, b :: y, hx, .cons hb hy, rfl⟩

theorem exists_map_eq_some_iff {f : α → β} {x : Option α} :
    (∃ b, x.map f = some b) ↔ ∃ a, x = some a := by
  cases x <;> simp

theorem mapM_eq_some_iff {f : α → Option β} {l : List α} {out : List β} :
    l.mapM f = some out ↔ List.Forall₂ (fun a b => f a = some b) l out := by
  induction l generalizing out with
  | nil =>
    rw [List.mapM_nil, List.forall₂_nil_left_iff, Option.pure_def, Option.some.injEq, eq_comm]
  | cons a rest ih =>
    rw [List.mapM_cons, List.forall₂_cons_left_iff, Option.bind_eq_bind, Option.bind_eq_some_iff]
    refine exists_congr fun b => ?_
    rw [Option.bind_eq_bind, Option.bind_eq_some_iff]
    constructor
    · rintro ⟨ha, bs, hrest, hout⟩
      cases hout
      exact ⟨bs, ha, ih.1 hrest, rfl⟩
    · rintro ⟨bs, ha, hrest, rfl⟩
      exact ⟨ha, bs, ih.2 hrest, rfl⟩

/-- What a walk gives comes from an item. -/
theorem exists_of_mem_of_forall₂ {R : α → β → Prop} {l : List α} {out : List β}
    (h : List.Forall₂ R l out) {b : β} (hb : b ∈ out) : ∃ a ∈ l, R a b := by
  induction h with
  | nil => cases hb
  | cons hab _ ih =>
    rcases List.mem_cons.1 hb with rfl | hb
    · exact ⟨_, List.mem_cons_self, hab⟩
    · obtain ⟨a, ha, h⟩ := ih hb
      exact ⟨a, List.mem_cons_of_mem _ ha, h⟩

/-- A walk fails with the failure of one of its items. -/
theorem exists_of_mapM_eq_error {f : α → Except ε β} {l : List α} {e : ε}
    (h : l.mapM f = .error e) : ∃ a ∈ l, f a = .error e := by
  induction l with
  | nil => cases h
  | cons a rest ih =>
    rw [List.mapM_cons, bind_eq_error] at h
    rcases h with ha | ⟨b, -, h⟩
    · exact ⟨a, List.mem_cons_self, ha⟩
    · rcases bind_eq_error.1 h with hrest | ⟨bs, -, h⟩
      · obtain ⟨x, hx, he⟩ := ih hrest
        exact ⟨x, List.mem_cons_of_mem _ hx, he⟩
      · cases h

end SyntaxGraph
