import SyntaxGraph.Yaml.Character
import SyntaxGraph.Yaml.Fault

/-!
# Texts with places

What a character means in a YAML text depends on the line and the column that it stands in. A
`Located` character knows both. Locating the characters of a text also makes its line breaks
alike: a carriage return, the pair of it and a line feed, and the character U+0085 all become a
line feed. Only the separators U+2028 and U+2029 stay what they are.
-/

namespace SyntaxGraph.Yaml

/-- A character at its place. -/
structure Located where
  char : Char
  line : Nat
  column : Nat
  deriving Inhabited

namespace Located

/-- The character ends a line. -/
def isBreak (p : Located) : Bool := Yaml.isBreak p.char

/-- The character is a space or a tab. -/
def isGap (p : Located) : Bool := Yaml.isGap p.char

/-- The character separates words. -/
def isSpace (p : Located) : Bool := p.isBreak || p.isGap

end Located

/-- The characters from a place on. -/
def locateFrom (line column : Nat) : List Char → List Located
  | [] => []
  | '\r' :: '\n' :: rest => ⟨'\n', line, column⟩ :: locateFrom (line + 1) 0 rest
  | c :: rest =>
    if c = '\r' || c = '\n' || c = '\u0085' then
      ⟨'\n', line, column⟩ :: locateFrom (line + 1) 0 rest
    else if isSeparator c then ⟨c, line, column⟩ :: locateFrom (line + 1) 0 rest
    else ⟨c, line, column⟩ :: locateFrom line (column + 1) rest

/-- The characters of a text at their places. -/
def locate (s : String) : Except Fault (List Located) :=
  if s.toList.all isAllowed then .ok (locateFrom 0 0 s.toList)
  else .error .forbiddenCharacter

/-- Nothing but a space, a break or the end follows. -/
def atSpace : List Located → Bool
  | [] => true
  | p :: _ => p.isSpace

/-- A line that separates documents: three hyphens or three dots in the first column. -/
def atMarker (c : Char) : List Located → Bool
  | p :: q :: r :: rest =>
    p.column = 0 && p.char = c && q.char = c && r.char = c && atSpace rest
  | _ => false

/-- Either of the lines that separate documents. -/
def atDocumentMarker (input : List Located) : Bool := atMarker '-' input || atMarker '.' input

/-- The longest run of characters of a class, and what follows it. -/
def takeRun (p : Char → Bool) (input : List Located) : List Char × List Located :=
  ((input.takeWhile fun c => p c.char).map (·.char), input.dropWhile fun c => p c.char)

/-- What follows a run of spaces and tabs. -/
def dropGaps (input : List Located) : List Located := input.dropWhile Located.isGap

/-- The rest of a line that holds nothing more but a comment; it starts with the break. -/
def dropToBreak? (input : List Located) : Option (List Located) :=
  match dropGaps input with
  | [] => some []
  | p :: rest =>
    if p.char = '#' then some (rest.dropWhile fun c => !c.isBreak)
    else if p.isBreak then some (p :: rest)
    else none

end SyntaxGraph.Yaml
