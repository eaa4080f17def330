import SyntaxGraph.Decimal.Range
import SyntaxGraph.Text.Hexadecimal

/-!
# Kinds of plain scalars

A plain scalar is nothing, a truth value, an integer, a float or a text, and its characters alone
say which. A number with leading zeros is none: it is a text, but one that has to be quoted, since
other readers take it for a number.
-/

namespace SyntaxGraph.Yaml

/-! ## Nothing and truth values -/

/-- The words for nothing. -/
def isNull (text : String) : Bool := ["null", "Null", "NULL", "~"].contains text

def readBool? (text : String) : Option Bool :=
  if ["true", "True", "TRUE"].contains text then some true
  else if ["false", "False", "FALSE"].contains text then some false
  else none

/-! ## Integers -/

/-- A number from its digits in a base; there is at least one. -/
def readDigits? (base : Nat) (digits : List Char) : Option Nat :=
  if digits.isEmpty then none
  else digits.foldlM (fun n c => do
    let d ← Text.hexValue? c
    if d < base then some (n * base + d) else none) 0

/-- A number without a sign: hexadecimal after `0x`, octal after `0o`, binary after `0b`, else
decimal without leading zeros. -/
def readUnsigned? : List Char → Option Nat
  | '0' :: 'x' :: rest => readDigits? 16 rest
  | '0' :: 'o' :: rest => readDigits? 8 rest
  | '0' :: 'b' :: rest => readDigits? 2 rest
  | '0' :: _ :: _ => none
  | digits => readDigits? 10 digits

/-- A natural number with an optional plus sign. -/
def readNat? (text : String) : Option Nat :=
  match text.toList with
  | '+' :: rest => readUnsigned? rest
  | cs => readUnsigned? cs

/-- An integer of 128 bits, signed if it is negative and unsigned if not. -/
def isInteger (text : String) : Bool :=
  match text.toList with
  | '-' :: rest => (readUnsigned? rest).any (· ≤ Nat.pow 2 127)
  | _ => (readNat? text).any (· < Nat.pow 2 128)

/-! ## Floats -/

/-- What follows a sign, if there is one. -/
def dropSign : List Char → List Char
  | c :: rest => if c = '+' || c = '-' then rest else c :: rest
  | [] => []

/-- An exponent up to the end; without one it is zero. -/
def readExponent? : List Char → Option Int
  | [] => some 0
  | c :: rest =>
    if c = 'e' || c = 'E' then
      (readDigits? 10 (dropSign rest)).map fun n => if rest.head? = some '-' then -n else n
    else none

/-- A decimal number without a sign: digits, with a point among, before or after them, and an
exponent. -/
def readDecimal? (cs : List Char) : Option Decimal :=
  let whole := cs.takeWhile Char.isDigit
  let (fraction, rest) := match cs.dropWhile Char.isDigit with
    | '.' :: rest => (rest.takeWhile Char.isDigit, rest.dropWhile Char.isDigit)
    | rest => ([], rest)
  do
    let digits ← readDigits? 10 (whole ++ fraction)
    let exponent ← readExponent? rest
    return ⟨digits, exponent - fraction.length⟩

/-- A float: a word for infinity or for what is no number, or a decimal of finite value. -/
def isFloat (text : String) : Bool :=
  let unsigned := dropSign text.toList
  [".nan", ".NaN", ".NAN"].contains text
    || [".inf", ".Inf", ".INF"].contains (String.ofList unsigned)
    || (readDecimal? unsigned).any Decimal.isFinite

/-! ## Texts -/

/-- Digits, after an optional sign, with leading zeros. -/
def isPadded (text : String) : Bool :=
  match dropSign text.toList with
  | '0' :: rest => !rest.isEmpty && rest.all Char.isDigit
  | _ => false

/-- Written plain, the text would be taken for something else. -/
def isAmbiguous (text : String) : Bool :=
  text.isEmpty || isNull text || (readBool? text).isSome || isInteger text || isFloat text
    || isPadded text

end SyntaxGraph.Yaml
