/-!
# Shortest decimals of binary64 values

A finite binary64 value stands for every real that rounds to it. `Dyadic.shortest` picks, among
the decimals in that interval, one with the fewest digits, and of those the one nearest to the
value. Everything is decided in exact arithmetic on naturals; a `Float` is looked at only
through its bits.
-/

namespace SyntaxGraph

/-- Which of two equally near decimals is taken. -/
inductive Tie where
  /-- the one whose last digit is even -/
  | toEven
  /-- the greater one -/
  | up
  deriving DecidableEq, Repr

/-- The decimal `digits * 10 ^ exponent`. -/
structure Decimal where
  digits : Nat
  exponent : Int
  deriving DecidableEq, Repr

/-- The magnitude `mantissa * 2 ^ exponent` of a finite binary64 value. -/
structure Dyadic where
  mantissa : Nat
  exponent : Int
  /-- the gap to the value below is half the gap to the value above -/
  narrowBelow : Bool
  deriving DecidableEq, Repr

namespace Dyadic

/-- The magnitude written in the bits of a finite value; the sign bit is not looked at. -/
def ofBits (bits : UInt64) : Dyadic :=
  let biased := ((bits >>> 52) &&& 0x7FF).toNat
  let fraction := (bits &&& 0xFFFFFFFFFFFFF).toNat
  if biased = 0 then ⟨fraction, -1074, false⟩
  else ⟨0x10000000000000 + fraction, (biased : Int) - 1075, fraction = 0 && biased > 1⟩

/-- How `digits * 10 ^ e` compares with `quarters * 2 ^ (x.exponent - 2)`. -/
def compareQuarters (x : Dyadic) (d : Decimal) (quarters : Nat) : Ordering :=
  let q := x.exponent - 2
  compare (d.digits * Nat.pow 10 d.exponent.toNat * Nat.pow 2 (-q).toNat)
    (quarters * Nat.pow 2 q.toNat * Nat.pow 10 (-d.exponent).toNat)

/-- A decimal lies among the reals that round to `x`; the ends do when the mantissa is even. -/
def readsBack (x : Dyadic) (d : Decimal) : Bool :=
  let low := 4 * x.mantissa - (if x.narrowBelow then 1 else 2)
  let high := 4 * x.mantissa + 2
  let ends := x.mantissa % 2 = 0
  let fromLow := x.compareQuarters d low
  let fromHigh := x.compareQuarters d high
  (fromLow = .gt || (ends && fromLow = .eq)) && (fromHigh = .lt || (ends && fromHigh = .eq))

/-- The greatest multiple of `10 ^ e` that is at most `x`, as a number of such units. -/
def floorUnits (x : Dyadic) (e : Int) : Nat :=
  (x.mantissa * Nat.pow 2 x.exponent.toNat * Nat.pow 10 (-e).toNat) /
    (Nat.pow 2 (-x.exponent).toNat * Nat.pow 10 e.toNat)

/-- The least `k` with `x < 10 ^ k`, found beside the estimate that the binary logarithm gives. -/
def scale (x : Dyadic) : Int :=
  let guess := ((Nat.log2 x.mantissa : Int) + x.exponent) * 30103 / 100000
  if x.compareQuarters ⟨1, guess⟩ (4 * x.mantissa) = .gt then guess
  else if x.compareQuarters ⟨1, guess + 1⟩ (4 * x.mantissa) = .gt then guess + 1
  else guess + 2

/-- The decimal on the grid of `10 ^ e` that reads back as `x`, the nearer one of two. -/
def onGrid? (tie : Tie) (x : Dyadic) (e : Int) : Option Decimal :=
  let below : Decimal := ⟨x.floorUnits e, e⟩
  let above : Decimal := ⟨x.floorUnits e + 1, e⟩
  match x.readsBack below, x.readsBack above with
  | false, false => none
  | true, false => some below
  | false, true => some above
  | true, true =>
    match x.compareQuarters ⟨2 * below.digits + 1, e⟩ (8 * x.mantissa) with
    | .gt => some below
    | .lt => some above
    | .eq => some (if tie = .toEven && below.digits % 2 = 0 then below else above)

/-- The exact value as a decimal. -/
def exact (x : Dyadic) : Decimal :=
  if 0 ≤ x.exponent then ⟨x.mantissa * Nat.pow 2 x.exponent.toNat, 0⟩
  else ⟨x.mantissa * Nat.pow 5 (-x.exponent).toNat, x.exponent⟩

end Dyadic

/-- Move trailing zeros of the digits into the exponent. -/
def Decimal.strip (d : Decimal) : Decimal :=
  if h : d.digits ≠ 0 ∧ d.digits % 10 = 0 then
    Decimal.strip ⟨d.digits / 10, d.exponent + 1⟩
  else d
termination_by d.digits
decreasing_by omega

/-- The shortest decimal that reads back as `x`: the first grid with a hit wins. -/
def Dyadic.shortest (tie : Tie) (x : Dyadic) : Decimal :=
  if x.mantissa = 0 then ⟨0, 0⟩
  else
    let k := x.scale
    (((List.range 17).findSome? fun (n : Nat) => x.onGrid? tie (k - (n + 1 : Nat))).getD
      x.exact).strip

end SyntaxGraph
