import SyntaxGraph.Decimal.Shortest

/-!
# The range of decimals

Rounded to the nearest binary64 value, a decimal becomes infinite from a bound on: halfway between
the greatest finite value and the power of two that would follow it.
-/

namespace SyntaxGraph.Decimal

/-- The least magnitude that rounds to no finite binary64 value. -/
def overflow : Nat := Nat.pow 2 1024 - Nat.pow 2 970

/-- The decimal rounds to a finite binary64 value. Exact powers are needed only where the number
of digits leaves the answer open. -/
def isFinite (d : Decimal) : Bool :=
  let magnitude := (Nat.toDigits 10 d.digits).length + d.exponent
  if d.digits = 0 || magnitude ≤ 308 then true
  else if 309 < magnitude then false
  else d.digits * Nat.pow 10 d.exponent.toNat < overflow * Nat.pow 10 (-d.exponent).toNat

end SyntaxGraph.Decimal
