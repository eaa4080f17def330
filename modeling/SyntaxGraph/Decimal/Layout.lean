import SyntaxGraph.Decimal.Shortest

/-!
# Writing decimals

A `Layout` holds the decisions of one number format: which magnitudes are written positionally,
whether a whole number shows a fraction, how an exponent is written, which way ties go.
`Layout.write` is the one printer that reads them.
-/

namespace SyntaxGraph

/-- The decisions of a number format. -/
structure Layout where
  tie : Tie
  /-- least and greatest exponent of the leading digit that is written positionally; without
  bounds every number is -/
  positional : Option (Int × Int)
  /-- a positional whole number ends in `.0` -/
  wholeFraction : Bool
  /-- a non-negative exponent is written with its sign -/
  exponentPlus : Bool

namespace Layout

/-- The exponent of the leading digit. -/
def leading (d : Decimal) : Int := (toString d.digits).length - 1 + d.exponent

def zeros (count : Nat) : String := String.ofList (List.replicate count '0')

/-- Digits with the decimal point among, before or after them. -/
def writePositional (layout : Layout) (d : Decimal) : String :=
  let digits := (toString d.digits).toList
  let point : Int := digits.length + d.exponent
  if 0 ≤ d.exponent then
    toString d.digits ++ zeros d.exponent.toNat ++ (if layout.wholeFraction then ".0" else "")
  else if 0 < point then
    String.ofList (digits.take point.toNat) ++ "." ++ String.ofList (digits.drop point.toNat)
  else "0." ++ zeros (-point).toNat ++ toString d.digits

/-- One digit before the point, the others after it, then the exponent. -/
def writeScientific (layout : Layout) (d : Decimal) : String :=
  let digits := (toString d.digits).toList
  let fraction := digits.drop 1
  let e := leading d
  String.ofList (digits.take 1) ++ (if fraction.isEmpty then "" else "." ++ String.ofList fraction)
    ++ "e" ++ (if layout.exponentPlus && 0 ≤ e then "+" else "") ++ toString e

def write (layout : Layout) (d : Decimal) : String :=
  match layout.positional with
  | none => layout.writePositional d
  | some (least, greatest) =>
    if d.digits = 0 || (least ≤ leading d && leading d ≤ greatest) then layout.writePositional d
    else layout.writeScientific d

/-- The text of a finite float: its sign, then the shortest decimal that reads back. A zero
keeps its sign. -/
def writeFloat (layout : Layout) (x : Float) : String :=
  (if x.toBits >>> 63 = 1 then "-" else "")
    ++ layout.write ((Dyadic.ofBits x.toBits).shortest layout.tie)

end Layout

end SyntaxGraph
