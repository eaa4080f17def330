import SyntaxGraph.Json.Text
import SyntaxGraph.Json.Token

/-!
# The texts of numbers are tokens

A number is written so that it is read as one token: a sign, whole digits of which the first is a
zero only if it stands alone, then maybe a fraction and an exponent with a digit each. `chars` is
the text of a token, and `WellFormed` says which tokens can be read back from it
(`lexUnsigned_chars`).

For a float this asks of its shortest decimal that zero has no exponent (`exponent_shortest`), for
else the zeros of the exponent would follow a zero.

Main statement: `exists_token`.
-/

namespace SyntaxGraph

/-! ## Digits -/

theorem isDigit_of_mem_toDigits {n : Nat} {c : Char} (h : c ∈ Nat.toDigits 10 n) :
    c.isDigit = true :=
  Nat.isDigit_of_mem_toDigits (by decide) (by decide) h

theorem head?_toDigits_append (n : Nat) (rest : List Char) :
    (Nat.toDigits 10 n ++ rest).head? = (Nat.toDigits 10 n).head? := by
  cases h : Nat.toDigits 10 n with
  | nil => exact absurd h Nat.toDigits_ne_nil
  | cons c more => rfl

/-- The first digit of a number is no zero, unless it is the number zero. -/
theorem eq_zero_of_head?_toDigits {n : Nat} (h : (Nat.toDigits 10 n).head? = some '0') : n = 0 := by
  induction n using Nat.strongRecOn with
  | ind n ih =>
    rw [Nat.toDigits_eq_if (by decide)] at h
    split at h
    · rename_i hlt
      have hdigit : ∀ k < 10, [Nat.digitChar k].head? = some '0' → k = 0 := by decide
      exact hdigit n hlt h
    · rw [head?_toDigits_append] at h
      have := ih (n / 10) (by omega) h
      omega

theorem toList_toString_int (v : Int) :
    (toString v).toList = (if v < 0 then ['-'] else []) ++ Nat.toDigits 10 v.natAbs := by
  cases v with
  | ofNat n =>
    have hnot : ¬ Int.ofNat n < 0 := Int.not_lt.2 (Int.natCast_nonneg n)
    rw [if_neg hnot]
    exact Nat.toList_repr
  | negSucc n =>
    show ("-" ++ Nat.repr (n + 1)).toList = _
    rw [if_pos (Int.negSucc_lt_zero n), String.toList_append, Nat.toList_repr]
    rfl

theorem isDigit_of_mem_replicate {k : Nat} {c : Char} (h : c ∈ List.replicate k '0') :
    c.isDigit = true := by
  rw [List.eq_of_mem_replicate h]
  rfl

/-! ## Shortest decimals -/

theorem Decimal.digits_strip {d : Decimal} (h : d.digits ≠ 0) : d.strip.digits ≠ 0 := by
  fun_induction Decimal.strip d with
  | case1 d hzeros ih => exact ih (by simp only; omega)
  | case2 d _ => exact h

namespace Dyadic

variable {x : Dyadic} {d : Decimal} {tie : Tie} {e : Int}

theorem readsBack_zero (hx : x.mantissa ≠ 0) : x.readsBack ⟨0, e⟩ = false := by
  have hlow : ∀ k : Nat, 0 < k → x.compareQuarters ⟨0, e⟩ k = .lt := by
    intro k hk
    rw [compareQuarters, Nat.compare_eq_lt, Nat.zero_mul, Nat.zero_mul]
    exact Nat.mul_pos (Nat.mul_pos hk (Nat.pow_pos (by decide))) (Nat.pow_pos (by decide))
  have hlow := hlow (4 * x.mantissa - if x.narrowBelow then 1 else 2) (by split <;> omega)
  simp [readsBack, hlow]

theorem digits_onGrid? (hx : x.mantissa ≠ 0) (h : x.onGrid? tie e = some d) : d.digits ≠ 0 := by
  -- a decimal below the value reads back as it, so it is not zero
  have hbelow : x.readsBack ⟨x.floorUnits e, e⟩ = true → x.floorUnits e ≠ 0 := by
    intro hreads hzero
    rw [hzero, readsBack_zero hx] at hreads
    cases hreads
  rw [onGrid?] at h
  split at h
  · cases h
  · rename_i hreads _
    cases h
    exact hbelow hreads
  · cases h
    exact Nat.succ_ne_zero _
  · rename_i hreads _
    split at h
    · cases h
      exact hbelow hreads
    · cases h
      exact Nat.succ_ne_zero _
    · cases h
      split
      · exact hbelow hreads
      · exact Nat.succ_ne_zero _

theorem digits_exact (hx : x.mantissa ≠ 0) : x.exact.digits ≠ 0 := by
  rw [exact]
  split
  · exact Nat.mul_ne_zero hx (Nat.ne_of_gt (Nat.pow_pos (by decide)))
  · exact Nat.mul_ne_zero hx (Nat.ne_of_gt (Nat.pow_pos (by decide)))

/-- The shortest decimal of a value is zero without an exponent, or not zero. -/
theorem exponent_shortest (x : Dyadic) (h : (x.shortest tie).digits = 0) :
    (x.shortest tie).exponent = 0 := by
  rw [shortest] at h ⊢
  split at h
  · rename_i hx
    rw [if_pos hx]
  · rename_i hx
    refine absurd h (Decimal.digits_strip ?_)
    cases hfind : (List.range 17).findSome? fun n => x.onGrid? tie (x.scale - (n + 1 : Nat)) with
    | none => exact digits_exact hx
    | some d =>
      obtain ⟨n, -, hn⟩ := List.exists_of_findSome?_eq_some hfind
      exact digits_onGrid? hx hn

end Dyadic

namespace Json

/-! ## Tokens and their texts -/

/-- A text that a number can stand in front of. -/
def StopsNumber (rest : List Char) : Prop :=
  ∀ c ∈ rest.head?, c.isDigit = false ∧ c ≠ '.' ∧ c ≠ 'e' ∧ c ≠ 'E'

theorem stopsNumber_nil : StopsNumber [] := nofun

namespace NumberToken

/-- The fraction digits after their point. -/
def fractionChars : List Char → List Char
  | [] => []
  | digits => '.' :: digits

def exponentChars : Option (Bool × List Char) → List Char
  | none => []
  | some (minus, digits) => 'e' :: (if minus then '-' else '+') :: digits

/-- The text of a token without its sign. -/
def unsignedChars (t : NumberToken) : List Char :=
  t.whole ++ (fractionChars t.fraction ++ exponentChars t.exponent)

def chars (t : NumberToken) : List Char := (if t.negative then ['-'] else []) ++ t.unsignedChars

/-- The token can be read back from its text. -/
structure WellFormed (t : NumberToken) : Prop where
  whole : ∀ c ∈ t.whole, c.isDigit = true
  nonempty : t.whole ≠ []
  /-- a zero stands alone -/
  leading : t.whole.head? = some '0' → t.whole = ['0']
  fraction : ∀ c ∈ t.fraction, c.isDigit = true
  exponent : ∀ minus digits, t.exponent = some (minus, digits) →
    digits ≠ [] ∧ ∀ c ∈ digits, c.isDigit = true

end NumberToken

open NumberToken

theorem spanDigits_append {digits rest : List Char} (hdigits : ∀ c ∈ digits, c.isDigit = true)
    (hrest : ∀ c ∈ rest.head?, c.isDigit = false) :
    spanDigits (digits ++ rest) = (digits, rest) := by
  have htake : rest.takeWhile Char.isDigit = [] := by
    cases rest with
    | nil => rfl
    | cons c _ => rw [List.takeWhile_cons_of_neg (by simp [hrest c rfl])]
  have hdrop : rest.dropWhile Char.isDigit = rest := by
    cases rest with
    | nil => rfl
    | cons c _ => rw [List.dropWhile_cons_of_neg (by simp [hrest c rfl])]
  rw [spanDigits, List.takeWhile_append_of_pos hdigits, List.dropWhile_append_of_pos hdigits,
    htake, hdrop, List.append_nil]

theorem lexWhole_append {digits rest : List Char} (hdigits : ∀ c ∈ digits, c.isDigit = true)
    (hnonempty : digits ≠ []) (hleading : digits.head? = some '0' → digits = ['0'])
    (hrest : ∀ c ∈ rest.head?, c.isDigit = false) :
    lexWhole (digits ++ rest) = some (digits, rest) := by
  rw [lexWhole, spanDigits_append hdigits hrest]
  split
  · rename_i heq
    cases heq
    exact absurd rfl hnonempty
  · rename_i heq
    cases heq
    cases hleading rfl
  · rename_i heq
    cases heq
    rfl

theorem lexFraction_append {fraction rest : List Char} (hdigits : ∀ c ∈ fraction, c.isDigit = true)
    (hrest : ∀ c ∈ rest.head?, c.isDigit = false ∧ c ≠ '.') :
    lexFraction (fractionChars fraction ++ rest) = some (fraction, rest) := by
  cases fraction with
  | nil =>
    rw [fractionChars, List.nil_append, lexFraction]
    rintro tail rfl
    exact (hrest '.' rfl).2 rfl
  | cons c more =>
    rw [fractionChars, List.cons_append, lexFraction,
      spanDigits_append hdigits fun c hc => (hrest c hc).1]
    · rfl
    · exact nofun

theorem lexExponent_append {exponent : Option (Bool × List Char)} {rest : List Char}
    (hexponent : ∀ minus digits, exponent = some (minus, digits) →
      digits ≠ [] ∧ ∀ c ∈ digits, c.isDigit = true)
    (hrest : StopsNumber rest) :
    lexExponent (exponentChars exponent ++ rest) = some (exponent, rest) := by
  cases exponent with
  | none =>
    cases rest with
    | nil => rfl
    | cons c tail =>
      obtain ⟨-, -, he, hE⟩ := hrest c rfl
      simp [exponentChars, lexExponent, he, hE]
  | some exponent =>
    obtain ⟨minus, digits⟩ := exponent
    obtain ⟨hnonempty, hdigits⟩ := hexponent minus digits rfl
    have hspan : spanDigits (digits ++ rest) = (digits, rest) :=
      spanDigits_append hdigits fun c hc => (hrest c hc).1
    have hempty : digits.isEmpty = false := by simpa using hnonempty
    cases minus <;> simp [exponentChars, lexExponent, hspan, hempty]

/-- **A well-formed token is read back from its text.** -/
theorem lexUnsigned_chars {t : NumberToken} (h : t.WellFormed) {rest : List Char}
    (hrest : StopsNumber rest) :
    lexUnsigned t.negative (t.unsignedChars ++ rest) = some (t, rest) := by
  have hexponent : ∀ c ∈ (exponentChars t.exponent ++ rest).head?,
      c.isDigit = false ∧ c ≠ '.' := by
    intro c hc
    cases he : t.exponent with
    | none =>
      rw [he] at hc
      exact ⟨(hrest c hc).1, (hrest c hc).2.1⟩
    | some e =>
      rw [he] at hc
      cases hc
      exact ⟨rfl, by decide⟩
  have hfraction : ∀ c ∈ (fractionChars t.fraction ++ (exponentChars t.exponent ++ rest)).head?,
      c.isDigit = false := by
    intro c hc
    cases hf : t.fraction with
    | nil =>
      rw [hf] at hc
      exact (hexponent c hc).1
    | cons d more =>
      rw [hf] at hc
      cases hc
      rfl
  rw [unsignedChars, List.append_assoc, List.append_assoc, lexUnsigned,
    lexWhole_append h.whole h.nonempty h.leading hfraction]
  simp only [Option.bind_eq_bind, Option.bind_some, lexFraction_append h.fraction hexponent,
    lexExponent_append h.exponent hrest]
  rfl

/-! ## Numbers as tokens -/

theorem wellFormed_whole (negative : Bool) (n : Nat) :
    WellFormed ⟨negative, Nat.toDigits 10 n, [], none⟩ where
  whole _ := isDigit_of_mem_toDigits
  nonempty := Nat.toDigits_ne_nil
  leading h := by rw [eq_zero_of_head?_toDigits h]; rfl
  fraction := nofun
  exponent := nofun

theorem chars_whole (v : Int) :
    chars ⟨decide (v < 0), Nat.toDigits 10 v.natAbs, [], none⟩ = (toString v).toList := by
  rw [toList_toString_int]
  simp [chars, unsignedChars, fractionChars, exponentChars]

/-- The digits of a number, with a point behind some of them. -/
theorem wellFormed_split {n k : Nat} (hn : n ≠ 0) (hk : 0 < k)
    (exponent : Option (Bool × List Char))
    (hexponent : ∀ minus digits, exponent = some (minus, digits) →
      digits ≠ [] ∧ ∀ c ∈ digits, c.isDigit = true) :
    WellFormed ⟨false, (Nat.toDigits 10 n).take k, (Nat.toDigits 10 n).drop k, exponent⟩ where
  whole _ h := isDigit_of_mem_toDigits (List.mem_of_mem_take h)
  nonempty h := by
    rcases List.take_eq_nil_iff.1 h with h | h
    · omega
    · exact Nat.toDigits_ne_nil h
  leading h := by
    rw [List.head?_take, if_neg (by omega)] at h
    exact absurd (eq_zero_of_head?_toDigits h) hn
  fraction _ h := isDigit_of_mem_toDigits (List.mem_of_mem_drop h)
  exponent := hexponent

/-- The text without sign is that of a token. -/
def IsUnsigned (text : String) : Prop :=
  ∃ t : NumberToken, t.WellFormed ∧ text.toList = t.unsignedChars

theorem toList_fraction (digits : List Char) :
    (if digits.isEmpty then "" else "." ++ String.ofList digits).toList = fractionChars digits := by
  cases digits <;> simp [fractionChars]

variable {d : Decimal}

theorem isUnsigned_writePositional (hzero : d.digits = 0 → d.exponent = 0) :
    IsUnsigned (numberLayout.writePositional d) := by
  have hdigits : (toString d.digits).toList = Nat.toDigits 10 d.digits := Nat.toList_repr
  rw [Layout.writePositional, hdigits]
  split
  · -- the zeros of the exponent stand behind digits that are not zero
    refine ⟨⟨false, Nat.toDigits 10 d.digits ++ List.replicate d.exponent.toNat '0', ['0'], none⟩,
      ⟨?_, ?_, ?_, ?_, nofun⟩, ?_⟩
    · intro c hc
      rcases List.mem_append.1 hc with hc | hc
      · exact isDigit_of_mem_toDigits hc
      · exact isDigit_of_mem_replicate hc
    · exact fun h => Nat.toDigits_ne_nil (List.append_eq_nil_iff.1 h).1
    · intro h
      rw [head?_toDigits_append] at h
      have hd := eq_zero_of_head?_toDigits h
      simp [hd, hzero hd]
    · exact fun c hc => isDigit_of_mem_replicate (k := 1) hc
    · simp [numberLayout, Layout.zeros, unsignedChars, fractionChars, exponentChars]
  · rename_i hexponent
    have hnonzero : d.digits ≠ 0 := fun hd => hexponent (Int.le_of_eq (hzero hd).symm)
    generalize hpoint : ((Nat.toDigits 10 d.digits).length : Int) + d.exponent = point
    split
    · -- a digit is left behind the point
      have hbehind : ((Nat.toDigits 10 d.digits).drop point.toNat).isEmpty = false := by
        rw [List.isEmpty_eq_false_iff, ne_eq, List.drop_eq_nil_iff]
        omega
      refine ⟨_, wellFormed_split hnonzero (k := point.toNat) (by omega) none nofun, ?_⟩
      rw [unsignedChars, ← toList_fraction, hbehind]
      simp [exponentChars]
    · generalize (-point).toNat = gap
      have hbehind : (List.replicate gap '0' ++ Nat.toDigits 10 d.digits).isEmpty = false := by
        rw [List.isEmpty_eq_false_iff]
        exact fun h => Nat.toDigits_ne_nil (List.append_eq_nil_iff.1 h).2
      refine ⟨⟨false, ['0'], List.replicate gap '0' ++ Nat.toDigits 10 d.digits, none⟩,
        ⟨?_, nofun, fun _ => rfl, ?_, nofun⟩, ?_⟩
      · exact fun c hc => isDigit_of_mem_replicate (k := 1) hc
      · intro c hc
        rcases List.mem_append.1 hc with hc | hc
        · exact isDigit_of_mem_replicate hc
        · exact isDigit_of_mem_toDigits hc
      · rw [unsignedChars, ← toList_fraction, hbehind]
        simp [exponentChars, Layout.zeros]

theorem isUnsigned_writeScientific (hnonzero : d.digits ≠ 0) :
    IsUnsigned (numberLayout.writeScientific d) := by
  have hdigits : (toString d.digits).toList = Nat.toDigits 10 d.digits := Nat.toList_repr
  rw [Layout.writeScientific, hdigits]
  generalize Layout.leading d = e
  refine ⟨_, wellFormed_split hnonzero (k := 1) (by omega)
    (some (decide (e < 0), Nat.toDigits 10 e.natAbs)) ?_, ?_⟩
  · rintro minus digits heq
    cases heq
    exact ⟨Nat.toDigits_ne_nil, fun c => isDigit_of_mem_toDigits⟩
  · have hsign : (if numberLayout.exponentPlus && decide (0 ≤ e) then "+" else "").toList ++
        (toString e).toList =
          (if decide (e < 0) then '-' else '+') :: Nat.toDigits 10 e.natAbs := by
      rw [toList_toString_int]
      by_cases he : e < 0
      · have hnot : ¬ 0 ≤ e := by omega
        simp [he, hnot]
      · have hle : 0 ≤ e := by omega
        simp [he, hle, numberLayout]
    rw [unsignedChars, ← toList_fraction, exponentChars, ← hsign]
    simp only [String.toList_append, String.toList_ofList, List.append_assoc]
    rfl

theorem isUnsigned_write (hzero : d.digits = 0 → d.exponent = 0) :
    IsUnsigned (numberLayout.write d) := by
  show IsUnsigned (if _ then _ else _)
  split
  · exact isUnsigned_writePositional hzero
  · rename_i hscientific
    exact isUnsigned_writeScientific fun hd => hscientific (by simp [hd])

/-- **A number is written as the text of a token**, which can be read back from it. -/
theorem exists_token (n : Number) : ∃ t : NumberToken, t.WellFormed ∧ n.text.toList = t.chars := by
  cases n with
  | int v =>
    exact ⟨_, wellFormed_whole (decide (v < 0)) v.natAbs, (chars_whole v).symm⟩
  | float x =>
    obtain ⟨t, ht, htext⟩ := isUnsigned_write (Dyadic.ofBits x.toBits).exponent_shortest
    refine ⟨{ t with negative := decide (x.toBits >>> 63 = 1) },
      ⟨ht.whole, ht.nonempty, ht.leading, ht.fraction, ht.exponent⟩, ?_⟩
    rw [Number.text, Layout.writeFloat, String.toList_append, htext, chars]
    by_cases hsign : x.toBits >>> 63 = 1 <;> simp [hsign, unsignedChars]

end Json

end SyntaxGraph
