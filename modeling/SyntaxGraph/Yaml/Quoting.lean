import SyntaxGraph.Text.Hexadecimal
import SyntaxGraph.Yaml.Character
import SyntaxGraph.Yaml.Plain

/-!
# Writing scalars

A text is written plain where that is unambiguous, else between single quotes, and between double
quotes when it holds what only an escape can express. A text with line feeds is a literal block
if it can be. Lines are never broken for their width.
-/

namespace SyntaxGraph.Yaml

/-! ## What a text holds -/

/-- Characters that need no escape. -/
def isPrintable (c : Char) : Bool :=
  c = '\n' || (' ' ≤ c && c ≤ '~') || ('\u00a0' ≤ c && c ≤ '\ud7ff')
    || ('\ue000' ≤ c && c ≤ '\ufffd' && c ≠ byteOrderMark) || 0x10000 ≤ c.toNat

/-- Two characters in a row with these properties. -/
def hasPair (p q : Char → Bool) : List Char → Bool
  | c :: d :: rest => (p c && q d) || hasPair p q (d :: rest)
  | _ => false

/-- White space or the end follows. -/
def blankNext (cs : List Char) : Bool := cs.head?.all fun c => isGap c || isBreak c

/-- A text that starts so is no plain scalar. -/
def startsLikeIndicator : List Char → Bool
  | [] => false
  | c :: rest =>
    "#,[]\x7b\x7d&*!|>\x27\"%@\x60".contains c
      || ((c = '?' || c = ':' || c = '-') && blankNext rest)
      || ['-', '-'].isPrefixOf rest && c = '-' || ['.', '.'].isPrefixOf rest && c = '.'

/-- The end of a key or the start of a comment, after a first character. -/
def holdsIndicator : List Char → Bool
  | c :: d :: rest =>
    (d = ':' && blankNext rest) || (d = '#' && (isGap c || isBreak c)) || holdsIndicator (d :: rest)
  | _ => false

/-- The text can stand between single quotes: no space beside a break, nothing to escape. -/
def canQuote (cs : List Char) : Bool :=
  cs.all isPrintable && !hasPair isBreak (· = ' ') cs && !hasPair (· = ' ') isBreak cs

/-- The text can be a literal block. -/
def canBlock (cs : List Char) : Bool :=
  cs.all isPrintable && !hasPair (· = ' ') isBreak cs && cs.getLast?.all (· ≠ ' ')

/-- The text can be a plain scalar in a block mapping. -/
def canPlain (cs : List Char) : Bool :=
  cs.all (fun c => isPrintable c && !isBreak c) && cs.head?.all (· ≠ ' ')
    && cs.getLast?.all (· ≠ ' ') && !startsLikeIndicator cs && !holdsIndicator cs

/-! ## The styles -/

/-- Spaces up to a column. -/
def indentation (indent : Nat) : List Char := List.replicate indent ' '

/-- Lines after a break are indented. -/
def indentLines (indent : Nat) (write : Char → List Char) (afterBreak : Bool) :
    List Char → List Char
  | [] => []
  | c :: rest =>
    if isBreak c then c :: indentLines indent write true rest
    else (if afterBreak then indentation indent else []) ++ write c
      ++ indentLines indent write false rest

/-- A quote is written twice between single quotes. -/
def doubleQuote (c : Char) : List Char := if c = '\x27' then [c, c] else [c]

/-- The text between single quotes. -/
def singleQuotedText (indent : Nat) (cs : List Char) : List Char :=
  '\x27' :: (indentLines indent doubleQuote false cs
    ++ (if cs.getLast?.any isBreak then indentation indent else []) ++ ['\x27'])

/-- The last hexadecimal digits of a number. -/
def hexDigits (count n : Nat) : List Char :=
  match count with
  | 0 => []
  | count + 1 => hexDigits count (n / 16) ++ [Text.upperHexDigit (n % 16)]

/-- The letter of a character's short escape. -/
def shortEscape? (c : Char) : Option Char :=
  [('\x00', '0'), ('\x07', 'a'), ('\x08', 'b'), ('\t', 't'), ('\n', 'n'), ('\x0b', 'v'),
    ('\x0c', 'f'), ('\r', 'r'), ('\x1b', 'e'), ('"', '"'), ('\\', '\\'), ('\u0085', 'N'),
    ('\u2028', 'L'), ('\u2029', 'P')].lookup c

/-- A character as it stands between double quotes. -/
def escapeChar (c : Char) : List Char :=
  match shortEscape? c with
  | some letter => ['\\', letter]
  | none =>
    if isPrintable c then [c]
    else if c.toNat ≤ 0xFF then '\\' :: 'x' :: hexDigits 2 c.toNat
    else if c.toNat ≤ 0xFFFF then '\\' :: 'u' :: hexDigits 4 c.toNat
    else '\\' :: 'U' :: hexDigits 8 c.toNat

/-- The text between double quotes. -/
def doubleQuotedText (cs : List Char) : List Char := '"' :: (cs.flatMap escapeChar ++ ['"'])

/-- The sign for the breaks at the end of a block. -/
def chompSign (cs : List Char) : List Char :=
  match cs.reverse with
  | [] => ['-']
  | [c] => if isBreak c then ['+'] else ['-']
  | c :: d :: _ => if !isBreak c then ['-'] else if isBreak d then ['+'] else []

/-- The text as a literal block. Its first line says the indentation if the text itself starts
with white space. -/
def literalText (indent step : Nat) (cs : List Char) : List Char :=
  '|' :: ((if cs.head?.any fun c => c = ' ' || isBreak c then (toString step).toList else [])
    ++ chompSign cs ++ '\n' :: indentLines indent (fun c => [c]) true cs)

/-- A text as the value of a key; lines after the first are indented to a column, which is one
step deeper than the key. The line is ended. -/
def writeText (indent step : Nat) (s : String) : String :=
  let cs := s.toList
  let written :=
    if cs.contains '\n' then
      if canBlock cs then literalText indent step cs else doubleQuotedText cs
    else if canPlain cs && !isAmbiguous s then cs
    else if canQuote cs then singleQuotedText indent cs
    else doubleQuotedText cs
  String.ofList (if written.getLast?.any isBreak then written else written ++ ['\n'])

end SyntaxGraph.Yaml
