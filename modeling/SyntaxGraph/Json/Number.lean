import SyntaxGraph.Json.Basic

/-!
# Number tokens and the values they denote

A token without fraction and exponent is an integer when it fits into 64 bits, signed if it is
negative and unsigned if not. Every other token, and `-0`, is a float. Its value is computed in
two steps, each with one rounding: the digits are collected into a 64-bit significand, digits
that no longer fit being dropped, and the significand is multiplied or divided by a power of
ten. The result can differ from the nearest float in the last bit.
-/

namespace SyntaxGraph

/-- Why a text is not the text of a JSON value. -/
inductive Json.TextError where
  /-- the text breaks the grammar -/
  | malformed
  /-- an escape denotes half of a surrogate pair -/
  | loneSurrogate
  /-- a number is beyond the range of floats -/
  | numberOutOfRange
  /-- arrays and objects are nested too deeply -/
  | tooDeep
  deriving DecidableEq, Repr

namespace Json

def TextError.message : TextError → String
  | .malformed => "not a JSON text"
  | .loneSurrogate => "lone surrogate in an escape"
  | .numberOutOfRange => "number out of range"
  | .tooDeep => "nested too deeply"

/-- A number as written. A token without fraction has no fraction digits. -/
structure NumberToken where
  negative : Bool
  whole : List Char
  fraction : List Char
  /-- the sign, `true` for minus, and the digits -/
  exponent : Option (Bool × List Char)
  deriving BEq, Inhabited

def digitValue (c : Char) : Nat := c.toNat - '0'.toNat

/-- The value of a string of decimal digits. -/
def digitsValue (digits : List Char) : Nat :=
  digits.foldl (fun value c => value * 10 + digitValue c) 0

namespace NumberToken

/-- Collect whole digits while they fit into 64 bits; also the number of digits dropped. -/
def collectWhole (significand : Nat) : List Char → Nat × Nat
  | [] => (significand, 0)
  | c :: rest =>
    if significand * 10 + digitValue c < UInt64.size then
      collectWhole (significand * 10 + digitValue c) rest
    else (significand, rest.length + 1)

/-- Collect fraction digits while they fit into 64 bits; each lowers the exponent by one. -/
def collectFraction (significand : Nat) (exponent : Int) : List Char → Nat × Int
  | [] => (significand, exponent)
  | c :: rest =>
    if significand * 10 + digitValue c < UInt64.size then
      collectFraction (significand * 10 + digitValue c) (exponent - 1) rest
    else (significand, exponent)

/-- A power of ten, for exponents up to 308. -/
def powerOfTen (exponent : Nat) : Float := Float.ofScientific 1 false exponent

/-- `significand * 10 ^ exponent`. Two divisions by `10 ^ 308` take every significand to zero. -/
def scale (significand : Nat) (exponent : Int) : Except TextError Float :=
  let f := significand.toUInt64.toFloat
  let e := exponent.natAbs
  if significand = 0 then .ok f
  else if 0 ≤ exponent then
    if 308 < e then .error .numberOutOfRange
    else
      let g := f * powerOfTen e
      if g.isInf then .error .numberOutOfRange else .ok g
  else if e ≤ 308 then .ok (f / powerOfTen e)
  else if e ≤ 616 then .ok (f / powerOfTen 308 / powerOfTen (e - 308))
  else .ok 0

/-- The written exponent. -/
def writtenExponent (t : NumberToken) : Int :=
  match t.exponent with
  | none => 0
  | some (minus, digits) => if minus then -(digitsValue digits : Int) else digitsValue digits

def value (t : NumberToken) : Except TextError Number :=
  let (collected, dropped) := collectWhole 0 t.whole
  let isInteger := t.fraction.isEmpty && t.exponent.isNone && dropped = 0
  if isInteger && !t.negative then .ok (.int collected)
  else if isInteger && 0 < collected && collected ≤ UInt64.size / 2 then .ok (.int (-collected))
  else
    let (significand, exponent) := collectFraction collected dropped t.fraction
    match scale significand (exponent + t.writtenExponent) with
    | .error e => .error e
    | .ok f => .ok (.float (if t.negative then -f else f))

end NumberToken

end Json

end SyntaxGraph
