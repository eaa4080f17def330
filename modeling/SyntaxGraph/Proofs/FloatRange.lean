import Mathlib.Algebra.Ring.Nat

/-!
# Integers as floats

An integer of 64 bits that is turned into a float is rounded, never out of range. The float is
computed in two shifts of its digits, with one rounding between them; a shift moves the exponent at
most as far as the digits are long, so the exponent stays small, and a float with a small exponent
is packed as a finite one.

Main statement: `isFinite_ofNat`.
-/

namespace SyntaxGraph

open Float.Model Float.Model.UnpackedFloat

/-! ## Packing -/

/-- A packed float whose exponent bits are not all set is finite. -/
theorem isFinite_of_unpackExponent {b : BitVec (Format.numBits .binary64)}
    (h : unpackExponent b ≠ -1#11) : (UnpackedFloat.unpack .binary64 b).isFinite = true := by
  unfold UnpackedFloat.unpack
  rw [if_neg h]
  by_cases hexponent : unpackExponent b = 0#_
  · rw [if_pos hexponent]
    by_cases hmantissa : unpackMantissa b = 0#_
    · rw [dif_pos hmantissa]
      rfl
    · rw [dif_neg hmantissa]
      rfl
  · rw [if_neg hexponent]
    rfl

theorem isFinite_pack_zero (s : Sign) : (Float.Model.pack (.zero s)).isFinite = true := by
  cases s <;> rfl

/-- A float with a small exponent is packed as a finite one. -/
theorem isFinite_pack_finite (s : Sign) (m : Nat) {e : Int} (hm : 0 < m) (he : e ≤ 970) :
    (Float.Model.pack (.finite s m e hm)).isFinite = true := by
  have hbiased : (e + (Format.binary64.exponentBias : Nat) +
      (Format.binary64.mantissaBitsWithoutImplicit : Nat)).toNat = (e + 1075).toNat := by
    show (e + (2 ^ (11 - 1) - 1 : Nat) + (52 : Nat)).toNat = _
    omega
  have hne : ∀ k < 2047, BitVec.ofNat 11 k ≠ -1#11 := by
    intro k hk heq
    have hnat := congrArg BitVec.toNat heq
    rw [BitVec.toNat_ofNat, Nat.mod_eq_of_lt (by omega)] at hnat
    exact absurd hnat (by rw [show (-1#11 : BitVec 11).toNat = 2047 from rfl]; omega)
  refine isFinite_of_unpackExponent ?_
  show unpackExponent (UnpackedFloat.pack .binary64 (.finite s m e hm)) ≠ _
  unfold UnpackedFloat.pack
  dsimp only
  rw [hbiased, if_neg (by show ¬ 2 ^ 11 ≤ _; omega)]
  split
  · rw [unpackExponent_packComponents]
    exact hne _ (by omega)
  · rw [unpackExponent_packComponents]
    exact hne 0 (by omega)

/-! ## Rounding -/

theorem mantissa_shiftRight_le (em : ExtendedMantissa) (k : Nat) :
    (em >>> k).mantissa ≤ em.mantissa := by
  induction k with
  | zero => exact Nat.le_refl _
  | succ k ih =>
    show (em >>> k).mantissa / 2 ≤ _
    omega

theorem roundedMantissa_le (em : ExtendedMantissa) : em.roundedMantissa ≤ em.mantissa + 1 := by
  obtain ⟨m, round, sticky⟩ := em
  rw [ExtendedMantissa.roundedMantissa]
  cases round <;> cases sticky <;>
    simp only [ExtendedMantissa.accuracy, Accuracy.roundToNearestEven] <;> omega

/-- Shifting makes the digits no longer, and raises the exponent at most by their length. -/
theorem shiftToTargetExponent_le {m k : Nat} {e : Int} (hm : m < 2 ^ (k + 1)) (he : -53 ≤ e) :
    let shifted := shiftToTargetExponent .binary64 m e .exact
    shifted.1.mantissa ≤ m ∧ e ≤ shifted.2 ∧ shifted.2 ≤ k + 1 + e := by
  intro shifted
  have hlog : m.log2 ≤ k := by
    by_cases h : m = 0
    · simp [h]
    · have := (Nat.log2_lt h).2 hm
      omega
  have htarget : Format.binary64.targetExponent (totalExponent m e) =
      max ((m.log2 : Int) + 1 + e - 53) (-1074) := rfl
  have hexponent : shifted.2 =
      e + ((Format.binary64.targetExponent (totalExponent m e) - e).toNat : Int) := rfl
  refine ⟨mantissa_shiftRight_le _ _, ?_, ?_⟩ <;> rw [hexponent, htarget] <;> omega

/-- Rounding digits that are not too long gives a finite float. -/
theorem isFinite_roundWithAccuracy (s : Sign) {m : Nat} (hm : m < 2 ^ 117) :
    (Float.Model.pack (roundWithAccuracy .binary64 s m (-53) .exact)).isFinite = true := by
  obtain ⟨hdigits, hlow, hhigh⟩ := shiftToTargetExponent_le (k := 116) hm (e := -53) (by omega)
  rw [roundWithAccuracy]
  generalize shiftToTargetExponent .binary64 m (-53) .exact = first at *
  obtain ⟨em, e⟩ := first
  dsimp only at hdigits hlow hhigh
  have hround : em.roundedMantissa < 2 ^ (117 + 1) := by
    have := roundedMantissa_le em
    omega
  obtain ⟨-, -, hhigh'⟩ := shiftToTargetExponent_le (k := 117) hround (e := e) hlow
  dsimp only
  by_cases hzero : (shiftToTargetExponent .binary64 em.roundedMantissa e .exact).1.mantissa = 0
  · rw [dif_pos hzero]
    exact isFinite_pack_zero s
  · rw [dif_neg hzero]
    exact isFinite_pack_finite s _ _ (by omega)

/-- Digits without a power of ten are rounded once. -/
theorem ofScientific_zero {n : Nat} (hn : n ≠ 0) :
    UnpackedFloat.ofScientific .binary64 n 0 =
      roundWithAccuracy .binary64 .positive (n <<< 53 * 10 ^ 0) (-53) .exact := by
  rw [UnpackedFloat.ofScientific, dif_neg hn, if_neg (by decide), if_neg ?_, if_pos (by decide)]
  · rfl
  · show ¬ (0 : Int) < -((2 ^ 11 : Int) + n.log2)
    omega

/-- **An integer of 64 bits is a finite float**, also where it has to be rounded. -/
theorem isFinite_ofNat {n : Nat} (large : 2 ^ 53 ≤ n) (fits : n < 2 ^ 64) :
    (Float.ofNat n).isFinite = true := by
  have hshift : n <<< 53 * 10 ^ 0 < 2 ^ 117 := by
    rw [Nat.shiftLeft_eq]
    omega
  have hmodel : Float.ofNat n =
      Float.ofModel (.pack (UnpackedFloat.ofScientific .binary64 n 0)) := by
    show Float.ofScientific n false 0 = _
    rw [Float.ofScientific, dif_neg (by omega)]
    rfl
  rw [hmodel, ofScientific_zero (by omega)]
  exact isFinite_roundWithAccuracy _ hshift

end SyntaxGraph
