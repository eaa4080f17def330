import Mathlib.Tactic.Common
import SyntaxGraph.Text.Lowercase

/-!
# Lowercasing twice

A text in lower case stays as it is when it is lowercased again. Every character that lowercasing
gives is *settled*: it is no capital sigma, whose form depends on what stands around it, and is its
own lowercase form. For the runs of the table, whose code points move by one distance, this is a
property of pairs of runs: where the code points of the one end up, there is none of the other.

Main statement: `lowercase_lowercase`.
-/

namespace SyntaxGraph.Text

/-! ## Runs -/

namespace CaseRun

/-- The run moves this code point. -/
def Moves (run : CaseRun) (c : Nat) : Prop :=
  run.first ≤ c ∧ c ≤ run.last ∧ (c - run.first) % run.stride = 0

/-- The code points from `low` up to `high` that are `stride` apart are none of the run's: they lie
before it or behind it, or between its own. -/
def misses (low high stride : Nat) (run : CaseRun) : Bool :=
  Nat.blt high run.first || Nat.blt run.last low ||
    ((stride == 2 || low == high) && run.stride == 2 && (low + run.first) % 2 == 1)

theorem not_moves_of_misses {low high stride c : Nat} {run : CaseRun}
    (h : run.misses low high stride = true) (hlow : low ≤ c) (hhigh : c ≤ high)
    (hstride : (c - low) % stride = 0) : ¬ run.Moves c := by
  rintro ⟨hfirst, hlast, hrun⟩
  simp only [misses, Bool.or_eq_true, Bool.and_eq_true, Nat.blt_eq, beq_iff_eq] at h
  rcases h with (hbefore | hbehind) | ⟨⟨htwo | hsingle, hrunTwo⟩, hodd⟩
  · omega
  · omega
  · rw [htwo] at hstride
    rw [hrunTwo] at hrun
    omega
  · rw [hrunTwo] at hrun
    omega

/-- The character whose lowercase form is not a single one, as a run. -/
def dottedCapital : CaseRun := ⟨0x130, 0x130, 1, 0⟩

/-- Where the run moves its code points, no run moves them further. -/
def isFinal (run : CaseRun) : Bool :=
  0 ≤ run.first + run.delta &&
    (dottedCapital :: lowercaseRuns).all
      (misses (run.first + run.delta).toNat (run.last + run.delta).toNat run.stride)

theorem isFinal_of_mem_lowercaseRuns : ∀ run ∈ lowercaseRuns, run.isFinal = true :=
  List.all_eq_true.1 (by decide +kernel)

/-- What a run has moved is moved by none. -/
theorem not_moves_of_isFinal {run other : CaseRun} {c : Nat} (final : run.isFinal = true)
    (hc : run.Moves c) (hother : other ∈ dottedCapital :: lowercaseRuns) :
    ¬ other.Moves (c + run.delta).toNat := by
  rw [isFinal, Bool.and_eq_true, List.all_eq_true, decide_eq_true_eq] at final
  obtain ⟨hfirst, hlast, hstride⟩ := hc
  refine not_moves_of_misses (final.2 other hother) (by omega) (by omega) ?_
  rwa [show (c + run.delta).toNat - (run.first + run.delta).toNat = c - run.first by omega]

end CaseRun

theorem lowercaseRun?_eq_some {c : Nat} {run : CaseRun} (h : lowercaseRun? c = some run) :
    run ∈ lowercaseRuns ∧ run.Moves c := by
  refine ⟨List.mem_of_find?_eq_some h, ?_⟩
  have hmoves := List.find?_some h
  simpa [CaseRun.Moves, and_assoc] using hmoves

theorem lowercaseRun?_eq_none_iff {c : Nat} :
    lowercaseRun? c = none ↔ ∀ run ∈ lowercaseRuns, ¬ run.Moves c := by
  rw [lowercaseRun?, List.find?_eq_none]
  simp [CaseRun.Moves]

/-! ## Characters -/

/-- Lowercasing leaves the character as it is, wherever it stands. -/
structure IsSettled (c : Char) : Prop where
  noSigma : c ≠ 'Σ'
  own : lowercaseChar c = [c]

theorem isSettled_of_not_moved {c : Char}
    (h : ∀ run ∈ CaseRun.dottedCapital :: lowercaseRuns, ¬ run.Moves c.toNat) : IsSettled c := by
  have hdotted : c ≠ '\u0130' := by
    rintro rfl
    exact h _ List.mem_cons_self ⟨Nat.le_refl _, Nat.le_refl _, rfl⟩
  have hnone : lowercaseRun? c.toNat = none :=
    lowercaseRun?_eq_none_iff.2 fun run hrun => h run (List.mem_cons_of_mem _ hrun)
  constructor
  · rintro rfl
    exact absurd hnone (by decide)
  · rw [lowercaseChar, if_neg hdotted, hnone]

theorem isSettled_of_mem_lowercaseChar {c d : Char} (hsigma : c ≠ 'Σ')
    (hd : d ∈ lowercaseChar c) : IsSettled d := by
  rw [lowercaseChar] at hd
  split at hd
  · rw [List.mem_cons, List.mem_singleton] at hd
    rcases hd with rfl | rfl
    · exact ⟨by decide, by decide⟩
    · exact ⟨by decide, by decide⟩
  · rename_i hdotted
    cases hrun : lowercaseRun? c.toNat with
    | none =>
      rw [hrun, List.mem_singleton] at hd
      subst hd
      exact ⟨hsigma, by rw [lowercaseChar, if_neg hdotted, hrun]⟩
    | some run =>
      rw [hrun, List.mem_singleton] at hd
      obtain ⟨hmem, hmoves⟩ := lowercaseRun?_eq_some hrun
      by_cases hvalid : (c.toNat + run.delta).toNat.isValidChar
      · have hnat : d.toNat = (c.toNat + run.delta).toNat := by
          rw [hd, Char.ofNat, dif_pos hvalid]
          rfl
        refine isSettled_of_not_moved fun other hother => ?_
        rw [hnat]
        exact CaseRun.not_moves_of_isFinal (CaseRun.isFinal_of_mem_lowercaseRuns run hmem) hmoves
          hother
      · have hzero : d = '\x00' := by
          rw [hd, Char.ofNat, dif_neg hvalid]
          rfl
        rw [hzero]
        exact ⟨by decide, by decide⟩

/-! ## Texts -/

theorem isSettled_of_mem_lowercaseAfter (cs : List Char) :
    ∀ before : List Char, ∀ d ∈ lowercaseAfter before cs, IsSettled d := by
  induction cs with
  | nil => exact fun _ => nofun
  | cons c rest ih =>
    intro before d hd
    rw [lowercaseAfter, List.mem_append] at hd
    rcases hd with hd | hd
    · split at hd
      · rw [List.mem_singleton] at hd
        subst hd
        split
        · exact ⟨by decide, by decide⟩
        · exact ⟨by decide, by decide⟩
      · rename_i hsigma
        exact isSettled_of_mem_lowercaseChar hsigma hd
    · exact ih (c :: before) d hd

theorem lowercaseAfter_of_isSettled {cs : List Char} (h : ∀ c ∈ cs, IsSettled c) :
    ∀ before : List Char, lowercaseAfter before cs = cs := by
  induction cs with
  | nil => exact fun _ => rfl
  | cons c rest ih =>
    intro before
    have hc := h c List.mem_cons_self
    rw [lowercaseAfter, if_neg hc.noSigma, hc.own,
      ih (fun d hd => h d (List.mem_cons_of_mem _ hd)), List.singleton_append]

/-- **A text in lower case is its own lowercase form.** -/
theorem lowercase_lowercase (s : String) : lowercase (lowercase s) = lowercase s := by
  have hsettled := isSettled_of_mem_lowercaseAfter s.toList []
  rw [lowercase, lowercase, String.toList_ofList, lowercaseAfter_of_isSettled hsettled]

end SyntaxGraph.Text
