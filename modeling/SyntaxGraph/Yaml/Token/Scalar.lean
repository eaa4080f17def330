import SyntaxGraph.Text.Hexadecimal
import SyntaxGraph.Yaml.Located

/-!
# Scanning scalars

The text of a scalar, from its first character on, and what follows it in the document. Texts are
collected backwards.

A line break inside a scalar is *folded*: one break stands for a space, and of several the first
stands for nothing. A break that is a separator is kept. Literal block scalars fold nothing, and
folded ones do not fold around lines that start with a blank.
-/

namespace SyntaxGraph.Yaml

/-! ## White space -/

/-- White space inside a scalar. -/
structure Gap where
  /-- the blanks, if no break is among them -/
  blanks : List Char := []
  /-- the first break, unless it was escaped -/
  first : Option Char := none
  /-- the breaks after the first -/
  later : List Char := []
  broken : Bool := false

namespace Gap

def isEmpty (g : Gap) : Bool := g.blanks.isEmpty && !g.broken

/-- One more blank or break; blanks around breaks do not count. -/
def add (g : Gap) (c : Char) : Gap :=
  if isBreak c then
    if g.broken then { g with later := c :: g.later } else { first := some c, broken := true }
  else if g.broken then g
  else { g with blanks := c :: g.blanks }

/-- What the white space stands for. -/
def folded (g : Gap) : List Char :=
  if !g.broken then g.blanks
  else match g.first with
    | none => g.later
    | some c =>
      if c = '\n' then (if g.later.isEmpty then [' '] else g.later) else g.later ++ [c]

end Gap

/-! ## Quoted scalars -/

/-- A scalar between single quotes, after the first; two quotes stand for one. -/
def singleQuoted (text : List Char) (gap : Gap) :
    List Located → Except Fault (List Char × List Located)
  | [] => .error .unterminated
  | p :: rest =>
    if p.isSpace then singleQuoted text (gap.add p.char) rest
    else if atDocumentMarker (p :: rest) then .error .unterminated
    else if p.char = '\x27' then
      match rest with
      | [] => .ok ((gap.folded ++ text).reverse, [])
      | q :: after =>
        if q.char = '\x27' then singleQuoted ('\x27' :: (gap.folded ++ text)) {} after
        else .ok ((gap.folded ++ text).reverse, q :: after)
    else singleQuoted (p.char :: (gap.folded ++ text)) {} rest

/-- The character that an escape of one letter stands for. -/
def escaped? : Char → Option Char
  | '0' => some '\x00'
  | 'a' => some '\x07'
  | 'b' => some '\x08'
  | 't' => some '\t'
  | '\t' => some '\t'
  | 'n' => some '\n'
  | 'v' => some '\x0b'
  | 'f' => some '\x0c'
  | 'r' => some '\r'
  | 'e' => some '\x1b'
  | ' ' => some ' '
  | '"' => some '"'
  | '/' => some '/'
  | '\\' => some '\\'
  | 'N' => some '\u0085'
  | '_' => some '\u00a0'
  | 'L' => some '\u2028'
  | 'P' => some '\u2029'
  | _ => none

/-- The number of digits after an escape letter. -/
def escapeDigits? : Char → Option Nat
  | 'x' => some 2
  | 'u' => some 4
  | 'U' => some 8
  | _ => none

/-- Where a reader between double quotes stands. -/
inductive Escape where
  | none
  /-- after a backslash -/
  | begun
  /-- with digits to come, after those that give a value -/
  | digits (left value : Nat)

/-- A scalar between double quotes, after the first. -/
def doubleQuoted (text : List Char) (gap : Gap) (escape : Escape) :
    List Located → Except Fault (List Char × List Located)
  | [] => .error .unterminated
  | p :: rest =>
    match escape with
    | .digits left value =>
      match Text.hexValue? p.char with
      | none => .error .escape
      | some digit =>
        if 1 < left then doubleQuoted text gap (.digits (left - 1) (value * 16 + digit)) rest
        else if (value * 16 + digit).isValidChar then
          doubleQuoted (Char.ofNat (value * 16 + digit) :: text) {} .none rest
        else .error .escape
    | .begun =>
      if p.isBreak then doubleQuoted text { broken := true } .none rest
      else match escaped? p.char, escapeDigits? p.char with
        | some c, _ => doubleQuoted (c :: text) {} .none rest
        | none, some n => doubleQuoted text {} (.digits n 0) rest
        | none, none => .error .escape
    | .none =>
      if p.isSpace then doubleQuoted text (gap.add p.char) .none rest
      else if atDocumentMarker (p :: rest) then .error .unterminated
      else if p.char = '"' then .ok ((gap.folded ++ text).reverse, rest)
      else if p.char = '\\' then doubleQuoted (gap.folded ++ text) {} .begun rest
      else doubleQuoted (p.char :: (gap.folded ++ text)) {} .none rest

/-! ## Plain scalars -/

/-- The indicators of flow collections. -/
def isFlowIndicator (c : Char) : Bool :=
  c = ',' || c = '[' || c = ']' || c = '\x7b' || c = '\x7d'

/-- A plain scalar ends before these characters. -/
def endsPlain (flow : Bool) : List Located → Bool
  | [] => true
  | p :: rest => (p.char = ':' && atSpace rest) || (flow && isFlowIndicator p.char)

/-- In a flow collection, a colon before an indicator is neither part of a scalar nor its end. -/
def isStrayColon (flow : Bool) : List Located → Bool
  | p :: q :: _ => flow && p.char = ':' && (isFlowIndicator q.char || q.char = '?')
  | _ => false

/-- A plain scalar whose lines are indented to a column at least; also whether the scalar is
followed by a break. -/
def plain (flow : Bool) (indent : Nat) (text : List Char) (gap : Gap) :
    List Located → Except Fault (List Char × Bool × List Located)
  | [] => .ok (text.reverse, gap.broken, [])
  | p :: rest =>
    if p.isSpace then
      if p.char = '\t' && gap.broken && p.column < indent then .error .tabIndent
      else plain flow indent text (gap.add p.char) rest
    else if !gap.isEmpty
        && ((!flow && p.column < indent) || atDocumentMarker (p :: rest) || p.char = '#') then
      .ok (text.reverse, gap.broken, p :: rest)
    else if isStrayColon flow (p :: rest) then .error .misplaced
    else if endsPlain flow (p :: rest) then .ok (text.reverse, gap.broken, p :: rest)
    else plain flow indent (p.char :: (gap.folded ++ text)) {} rest

/-! ## Block scalars -/

/-- What becomes of the breaks at the end of a block scalar. -/
inductive Chomp where
  | strip
  /-- one stays -/
  | clip
  | keep

/-- The text of a block scalar so far. -/
structure BlockText where
  text : List Char := []
  /-- the break of the last line that is not empty -/
  lineBreak : Option Char := none
  /-- the breaks of the empty lines after it -/
  emptyLines : List Char := []
  /-- that line starts with a blank -/
  startsBlank : Bool := false

namespace BlockText

/-- A new line that is not empty, and whether it starts with a blank. -/
def startLine (literal blank : Bool) (b : BlockText) : BlockText :=
  let folds := !literal && b.lineBreak == some '\n' && !b.startsBlank && !blank
  let joint :=
    if folds then (if b.emptyLines.isEmpty then [' '] else []) else b.lineBreak.toList
  { text := b.emptyLines ++ (joint ++ b.text), startsBlank := blank }

def push (b : BlockText) (c : Char) : BlockText := { b with text := c :: b.text }

/-- The whole text. -/
def finish (chomp : Chomp) (b : BlockText) : List Char :=
  match chomp with
  | .strip => b.text.reverse
  | .clip => (b.lineBreak.toList ++ b.text).reverse
  | .keep => (b.emptyLines ++ (b.lineBreak.toList ++ b.text)).reverse

end BlockText

mutual

/-- The lines of a block scalar, from within the indentation of a line. When the indentation is
not known it is that of the first line that is not empty, or of a deeper empty one before it,
but at least `least`. -/
def blockLines (literal : Bool) (least : Nat) (indent : Option Nat) (widest : Nat)
    (b : BlockText) : List Located → Except Fault (BlockText × List Located)
  | [] => .ok (b, [])
  | p :: rest =>
    let inside := indent.all fun n => p.column < n
    if p.char = ' ' && inside then
      blockLines literal least indent (max widest (p.column + 1)) b rest
    else if p.char = '\t' && inside then .error .tabIndent
    else if p.isBreak then
      blockLines literal least indent widest { b with emptyLines := p.char :: b.emptyLines } rest
    else
      let n := indent.getD (max widest least)
      if p.column = n then
        blockLine literal least n ((b.startLine literal p.isGap).push p.char) rest
      else .ok (b, p :: rest)

/-- The rest of a line, and the lines after it. -/
def blockLine (literal : Bool) (least indent : Nat) (b : BlockText) :
    List Located → Except Fault (BlockText × List Located)
  | [] => .ok (b, [])
  | p :: rest =>
    if p.isBreak then
      blockLines literal least (some indent) 0 { b with lineBreak := some p.char } rest
    else blockLine literal least indent (b.push p.char) rest

end

/-- The sign for the breaks at the end, if it comes next. -/
def takeChomp : List Located → Option Chomp × List Located
  | [] => (none, [])
  | p :: rest =>
    if p.char = '+' then (some .keep, rest)
    else if p.char = '-' then (some .strip, rest)
    else (none, p :: rest)

/-- The digit for the indentation, if it comes next; it cannot be zero. -/
def takeIndent : List Located → Except Fault (Option Nat × List Located)
  | [] => .ok (none, [])
  | p :: rest =>
    if p.char = '0' then .error .blockHeader
    else if p.char.isDigit then .ok (some (p.char.toNat - '0'.toNat), rest)
    else .ok (none, p :: rest)

/-- A block scalar after its first character, inside a block of the given indentation. Its first
line holds a sign and a digit in any order, both optional, and nothing more but a comment. -/
def block (literal : Bool) (outer : Option Nat) (input : List Located) :
    Except Fault (List Char × List Located) := do
  let (sign, afterSign) := takeChomp input
  let (digit, afterDigit) ← takeIndent afterSign
  let (lateSign, header) := if sign.isSome then (none, afterDigit) else takeChomp afterDigit
  match dropToBreak? header with
  | none => .error .blockHeader
  | some lineEnd =>
    let least := max 1 (outer.elim 0 (· + 1))
    let (b, rest) ← blockLines literal least (digit.map (outer.getD 0 + ·)) 0 {} (lineEnd.drop 1)
    return (b.finish ((sign.or lateSign).getD .clip), rest)

end SyntaxGraph.Yaml
