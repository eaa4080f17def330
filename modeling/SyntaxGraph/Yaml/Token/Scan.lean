import SyntaxGraph.Yaml.Token
import SyntaxGraph.Yaml.Token.Scalar

/-!
# Scanning documents

A text becomes a list of tokens. What starts a key is only known at the colon after it: the
scanner remembers, for the block level and for every open flow mapping, the place where a key may
have started, and puts the key's token there when the colon comes. Such a place counts on its
own line only, and for 1024 columns.

Sequences are refused where they start: no document of the kinds read here holds one.
-/

namespace SyntaxGraph.Yaml

/-! ## Properties and directives -/

/-- The octets of a tag from here on, escaped ones included. -/
def tagOctets (verbatim : Bool) (octets : List Char) (escape : Option (Option Nat)) :
    List Located → Except Fault (List Char × List Located)
  | [] => if escape.isNone then .ok (octets.reverse, []) else .error .tag
  | p :: rest =>
    match escape with
    | some none =>
      match Text.hexValue? p.char with
      | some high => tagOctets verbatim octets (some (some high)) rest
      | none => .error .tag
    | some (some high) =>
      match Text.hexValue? p.char with
      | some low => tagOctets verbatim (Char.ofNat (high * 16 + low) :: octets) none rest
      | none => .error .tag
    | none =>
      if p.char = '%' then tagOctets verbatim octets (some none) rest
      else if isWordChar p.char || ";/?:@&=+$.!~*\x27()".contains p.char
          || (verbatim && ",[]".contains p.char) then
        tagOctets verbatim (p.char :: octets) none rest
      else .ok (octets.reverse, p :: rest)

/-- How many octets follow the first one of a character; `none` for an octet that starts none. -/
def followers? (octet : Nat) : Option Nat :=
  if octet < 0x80 then some 0
  else if octet < 0xC0 then none
  else if octet < 0xE0 then some 1
  else if octet < 0xF0 then some 2
  else if octet < 0xF8 then some 3
  else none

/-- Octets form characters: each first one is followed by as many further ones as it asks for. -/
def areCharacters (awaited : Nat) : List Char → Bool
  | [] => awaited = 0
  | c :: rest =>
    if awaited = 0 then
      match followers? c.toNat with
      | some n => areCharacters n rest
      | none => false
    else 0x80 ≤ c.toNat && c.toNat < 0xC0 && areCharacters (awaited - 1) rest

/-- A part of a tag. -/
def tagPart (verbatim : Bool) (input : List Located) : Except Fault (List Char × List Located) := do
  let (octets, rest) ← tagOctets verbatim [] none input
  if areCharacters 0 octets then return (octets, rest) else .error .tag

/-- The text of a tag's octets; the octet zero ends it. -/
def tagText (octets : List Char) : String := String.ofList (octets.takeWhile (· ≠ '\x00'))

/-- A part of a tag that is not empty. -/
def someTagPart (verbatim : Bool) (input : List Located) :
    Except Fault (String × List Located) := do
  let (octets, rest) ← tagPart verbatim input
  if octets.isEmpty then .error .tag else return (tagText octets, rest)

/-- An exclamation mark with the word after it; also whether another mark closes the handle. -/
def tagHandle : List Located → Except Fault (String × Bool × List Located)
  | [] => .error .tag
  | p :: rest =>
    if p.char = '!' then
      let (word, after) := takeRun isWordChar rest
      match after with
      | q :: after' =>
        if q.char = '!' then .ok (String.ofList ('!' :: (word ++ ['!'])), true, after')
        else .ok (String.ofList ('!' :: word), false, q :: after')
      | [] => .ok (String.ofList ('!' :: word), false, [])
    else .error .tag

/-- A tag's handle and suffix, from its exclamation mark on. -/
def scanTag (input : List Located) : Except Fault (Token × List Located) :=
  match input with
  | p :: q :: rest =>
    if q.char = '<' then do
      let (suffix, after) ← someTagPart true rest
      match after with
      | r :: after' => if r.char = '>' then return (.tag "" suffix, after') else .error .tag
      | [] => .error .tag
    else scanShorthand (p :: q :: rest)
  | _ => scanShorthand input
where
  /-- A handle with a suffix, or a suffix of the handle `!`. -/
  scanShorthand (input : List Located) : Except Fault (Token × List Located) := do
    let (handle, closed, rest) ← tagHandle input
    if closed then
      let (suffix, after) ← someTagPart false rest
      return (.tag handle suffix, after)
    else
      let (octets, after) ← tagPart false rest
      let suffix := (handle.drop 1).toString ++ tagText octets
      return (if suffix.isEmpty then .tag "" "!" else .tag "!" suffix, after)

/-- A tag and the space after it; in a flow mapping a comma may follow as well. -/
def tagToken (flow : Bool) (input : List Located) : Except Fault (Token × List Located) := do
  let (token, rest) ← scanTag input
  if atSpace rest || (flow && rest.head?.any (·.char = ',')) then return (token, rest)
  else .error .tag

/-- The name of an anchor or alias, and what may end it. -/
def anchorName (input : List Located) : Except Fault (String × List Located) :=
  let (name, rest) := takeRun isWordChar input
  if !name.isEmpty &&
      (atSpace rest || rest.head?.any fun p => "?:,]\x7d%@\x60".contains p.char) then
    .ok (String.ofList name, rest)
  else .error .anchor

/-- A number of at most nine digits. -/
def versionNumber (input : List Located) : Except Fault (Nat × List Located) :=
  let (digits, rest) := takeRun Char.isDigit input
  if digits.isEmpty || 9 < digits.length then .error .directive
  else .ok (digits.foldl (fun n c => n * 10 + (c.toNat - '0'.toNat)) 0, rest)

/-- What stands in a directive after its name. -/
def directiveBody (name : String) (input : List Located) : Except Fault (Token × List Located) := do
  if name = "YAML" then
    let (major, rest) ← versionNumber (dropGaps input)
    match rest with
    | p :: rest' =>
      if p.char = '.' then
        let (minor, after) ← versionNumber rest'
        return (.versionDirective major minor, after)
      else .error .directive
    | [] => .error .directive
  else if name = "TAG" then
    let (handle, closed, rest) ← tagHandle (dropGaps input)
    if (closed || handle = "!") && rest.head?.any Located.isGap then
      let (start, after) ← someTagPart true (dropGaps rest)
      if atSpace after then return (.tagDirective handle start, after) else .error .directive
    else .error .directive
  else .error .directive

/-- A directive, after its percent sign, up to the end of its line. -/
def directive (input : List Located) : Except Fault (Token × List Located) := do
  let (name, rest) := takeRun isWordChar input
  if name.isEmpty || !atSpace rest then .error .directive
  else
    let (token, after) ← directiveBody (String.ofList name) rest
    match dropToBreak? after with
    | some lineEnd => return (token, lineEnd.drop 1)
    | none => .error .directive

/-! ## The scanner -/

/-- A place where a key may have started. -/
structure PendingKey where
  /-- nothing but a key can start here -/
  required : Bool
  /-- the number of tokens before it -/
  position : Nat
  line : Nat
  column : Nat

/-- What the scanner knows between two tokens. -/
structure Scanner where
  tokens : Array Token := #[]
  /-- the columns of the open block mappings, innermost first -/
  indents : List Nat := []
  pending : Option PendingKey := none
  /-- the places outside of the innermost flow mapping -/
  outer : List (Option PendingKey) := []
  /-- a key may start here -/
  keyAllowed : Bool := true

namespace Scanner

/-- A flow mapping is open. -/
def inFlow (s : Scanner) : Bool := !s.outer.isEmpty

def push (s : Scanner) (t : Token) : Scanner := { s with tokens := s.tokens.push t }

/-- One more token, at a position among the others. -/
def insertAt (s : Scanner) (position : Nat) (t : Token) : Scanner :=
  { s with tokens := s.tokens.extract 0 position ++ #[t]
      ++ s.tokens.extract position s.tokens.size }

/-- Whether a place still counts at another. -/
def stillCounts (p : Located) (k : PendingKey) : Bool :=
  k.line = p.line && p.column ≤ k.column + 1024

/-- Forget a place that no longer counts. -/
def forgetStale (p : Located) : Option PendingKey → Except Fault (Option PendingKey)
  | none => .ok none
  | some k =>
    if stillCounts p k then .ok (some k)
    else if k.required then .error .missingColon
    else .ok none

/-- Forget every place that no longer counts. -/
def dropStale (s : Scanner) (p : Located) : Except Fault Scanner := do
  return { s with
    pending := ← forgetStale p s.pending
    outer := ← s.outer.mapM (forgetStale p) }

/-- Forget the innermost place. -/
def dropPending (s : Scanner) : Except Fault Scanner :=
  if s.pending.any (·.required) then .error .missingColon else .ok { s with pending := none }

/-- Remember this place, if a key may start here. -/
def markKey (s : Scanner) (p : Located) : Except Fault Scanner :=
  if s.keyAllowed then do
    let cleared ← s.dropPending
    return { cleared with pending := some {
      required := !s.inFlow && s.indents.head? == some p.column
      position := s.tokens.size
      line := p.line
      column := p.column } }
  else .ok s

/-- End the block mappings that are indented deeper than a column. -/
def closeDeeper (column : Nat) (s : Scanner) : Scanner :=
  if s.inFlow then s
  else
    let ended := s.indents.takeWhile (column < ·)
    { s with
      indents := s.indents.drop ended.length
      tokens := s.tokens ++ (ended.map fun _ => Token.blockEnd).toArray }

/-- End all block mappings. -/
def closeAll (s : Scanner) : Scanner :=
  if s.inFlow then s
  else { s with
    indents := []
    tokens := s.tokens ++ (s.indents.map fun _ => Token.blockEnd).toArray }

/-- Start a block mapping at a column, if it is deeper than the innermost one. -/
def openMapping (s : Scanner) (column position : Nat) : Scanner :=
  if s.inFlow then s
  else if s.indents.head?.all (· < column) then
    { s with indents := column :: s.indents }.insertAt position .mappingStart
  else s

/-- A question mark that announces a key. -/
def explicitKey (s : Scanner) (p : Located) : Except Fault Scanner :=
  if !s.inFlow && !s.keyAllowed then .error .misplaced
  else do
    let opened ← (s.openMapping p.column s.tokens.size).dropPending
    return { opened with keyAllowed := !s.inFlow }.push .key

def colon (s : Scanner) (p : Located) : Except Fault Scanner :=
  match s.pending with
  | some k =>
    .ok <| ({ s.insertAt k.position .key with pending := none, keyAllowed := false }.openMapping
      k.column k.position).push .value
  | none =>
    if !s.inFlow && !s.keyAllowed then .error .misplaced
    else
      .ok <| { s.openMapping p.column s.tokens.size with keyAllowed := !s.inFlow }.push .value

/-- A directive or a line that separates documents. -/
def boundary (s : Scanner) (t : Token) : Except Fault Scanner := do
  let closed ← s.closeAll.dropPending
  return { closed with keyAllowed := false }.push t

/-- A token that a key may consist of. -/
def content (s : Scanner) (p : Located) (t : Token) : Except Fault Scanner := do
  let marked ← s.markKey p
  return { marked with keyAllowed := false }.push t

/-- What starts with an indicator, a quote or a plain character. -/
def scanContent (s : Scanner) (p : Located) (rest : List Located) :
    Except Fault (Scanner × List Located) := do
  let c := p.char
  if c = '*' then
    let (name, after) ← anchorName rest
    return (← s.content p (.alias name), after)
  else if c = '&' then
    let (name, after) ← anchorName rest
    return (← s.content p (.anchor name), after)
  else if c = '!' then
    let (token, after) ← tagToken s.inFlow (p :: rest)
    return (← s.content p token, after)
  else if (c = '|' || c = '>') && !s.inFlow then
    let (text, after) ← block (c = '|') s.indents.head? rest
    let cleared ← s.dropPending
    let style := if c = '|' then Style.literal else .folded
    return ({ cleared with keyAllowed := true }.push (.scalar style (String.ofList text)), after)
  else if c = '\x27' then
    let (text, after) ← singleQuoted [] {} rest
    return (← s.content p (.scalar .quoted (String.ofList text)), after)
  else if c = '"' then
    let (text, after) ← doubleQuoted [] {} .none rest
    return (← s.content p (.scalar .quoted (String.ofList text)), after)
  else if p.isGap || ("-?:,[]\x7b\x7d#&*!|>\x27\"%@\x60".contains c && c ≠ '-'
      && !(!s.inFlow && (c = '?' || c = ':') && !atSpace rest)) then
    .error .unexpectedCharacter
  else
    let indent := s.indents.head?.elim 0 (· + 1)
    let (text, broken, after) ← plain s.inFlow indent [] {} (p :: rest)
    let scanned ← s.content p (.scalar .plain (String.ofList text))
    return ({ scanned with keyAllowed := broken }, after)

/-- Scan one token and what comes with it. -/
def scanToken (s : Scanner) (p : Located) (rest : List Located) :
    Except Fault (Scanner × List Located) := do
  let c := p.char
  if p.column = 0 && c = '%' then
    let (token, after) ← directive rest
    return (← s.boundary token, after)
  else if atMarker '-' (p :: rest) then return (← s.boundary .documentStart, rest.drop 2)
  else if atMarker '.' (p :: rest) then return (← s.boundary .documentEnd, rest.drop 2)
  else if c = '[' || c = ']' then .error .sequence
  else if c = '\x7b' then
    let marked ← s.markKey p
    return ({ marked with
      pending := none, outer := marked.pending :: marked.outer, keyAllowed := true }.push
        .flowStart, rest)
  else if c = '\x7d' then
    let cleared ← s.dropPending
    let closed := { cleared with
      pending := cleared.outer.head?.getD none, outer := cleared.outer.drop 1, keyAllowed := false }
    return (closed.push .flowEnd, rest)
  else if c = ',' then
    let cleared ← s.dropPending
    return ({ cleared with keyAllowed := true }.push .flowEntry, rest)
  else if c = '-' && atSpace rest then .error .sequence
  else if c = '?' && (s.inFlow || atSpace rest) then return (← s.explicitKey p, rest)
  else if c = ':' && (s.inFlow || atSpace rest) then return (← s.colon p, rest)
  else s.scanContent p rest

/-- Pass white space and comments. A new line lets a key start. A byte order mark may start a line,
and takes up a column of it. -/
def skipSpace (s : Scanner) (comment : Bool) : List Located → Scanner × List Located
  | [] => (s, [])
  | p :: rest =>
    if p.isBreak then
      skipSpace { s with keyAllowed := s.keyAllowed || !s.inFlow } false rest
    else if comment || p.char = '#' then skipSpace s true rest
    else if p.char = ' ' || (p.char = '\t' && (s.inFlow || !s.keyAllowed))
        || (p.char = byteOrderMark && p.column = 0) then
      skipSpace s false rest
    else (s, p :: rest)

/-- Scan all that is left. -/
def run (s : Scanner) (input : List Located) : Except Fault (Array Token) :=
  match s.skipSpace false input with
  | (s, []) => do return (← s.closeAll.dropPending).tokens
  | (s, p :: rest) => do
    let current ← s.dropStale p
    let (next, after) ← (current.closeDeeper p.column).scanToken p rest
    if after.length < input.length then next.run after else .error .unexpectedCharacter
termination_by input.length

end Scanner

def tokens (s : String) : Except Fault (List Token) := do
  return (← ({} : Scanner).run (← locate s)).toList

end SyntaxGraph.Yaml
