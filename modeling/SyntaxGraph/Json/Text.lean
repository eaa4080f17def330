import SyntaxGraph.Json.Basic
import SyntaxGraph.Decimal.Layout
import SyntaxGraph.Text.Hexadecimal

/-!
# JSON texts of values

Two layouts of one value: `compact` without white space, and `pretty` with one item or member a
line and two spaces a level. Members are written in the order of the value. A string escapes the
quote, the backslash and control characters, and nothing else.

The functions named `…Onto` write in front of what follows, so a text is put together from its
end and every character is written once.
-/

namespace SyntaxGraph.Json

/-- Floats in JSON texts: positional from `1e-5` up to below `1e16`, whole floats with `.0`. -/
def numberLayout : Layout := ⟨.toEven, some (-5, 15), true, true⟩

def Number.text : Number → String
  | .int value => toString value
  | .float value => numberLayout.writeFloat value

/-- A character as it stands in a string. -/
def escapeChar (c : Char) : List Char :=
  if c = '"' then ['\\', '"']
  else if c = '\\' then ['\\', '\\']
  else if c = '\x08' then ['\\', 'b']
  else if c = '\x0c' then ['\\', 'f']
  else if c = '\n' then ['\\', 'n']
  else if c = '\r' then ['\\', 'r']
  else if c = '\t' then ['\\', 't']
  else if c < ' ' then
    ['\\', 'u', '0', '0', Text.lowerHexDigit (c.toNat / 16), Text.lowerHexDigit (c.toNat % 16)]
  else [c]

/-- A string between quotes. -/
def quoteOnto (s : String) (rest : List Char) : List Char :=
  '"' :: (s.toList.flatMap escapeChar ++ '"' :: rest)

/-- A value that holds no other values. -/
def leafOnto (rest : List Char) : Json → List Char
  | .bool b => (if b then "true" else "false").toList ++ rest
  | .number n => n.text.toList ++ rest
  | .string s => quoteOnto s rest
  | _ => "null".toList ++ rest

/-! ## Without white space -/

mutual

/-- A value. -/
def compactOnto (rest : List Char) : Json → List Char
  | .array items => '[' :: compactItemsOnto (']' :: rest) items
  | .object members => '\x7b' :: compactMembersOnto ('\x7d' :: rest) members
  | leaf => leafOnto rest leaf

/-- Items with commas between them. -/
def compactItemsOnto (rest : List Char) : List Json → List Char
  | [] => rest
  | [item] => item.compactOnto rest
  | item :: next :: more => item.compactOnto (',' :: compactItemsOnto rest (next :: more))

/-- Members with commas between them. -/
def compactMembersOnto (rest : List Char) : List (String × Json) → List Char
  | [] => rest
  | [(key, value)] => quoteOnto key (':' :: value.compactOnto rest)
  | (key, value) :: next :: more =>
    quoteOnto key (':' :: value.compactOnto (',' :: compactMembersOnto rest (next :: more)))

end

/-- The text without white space. -/
def compact (value : Json) : String := String.ofList (value.compactOnto [])

/-! ## With lines -/

/-- A new line with the indentation of a level. -/
def newLineOnto (level : Nat) (rest : List Char) : List Char :=
  '\n' :: (List.replicate (2 * level) ' ' ++ rest)

mutual

/-- A value inside `level` containers; an empty container has no lines. -/
def prettyOnto (level : Nat) (rest : List Char) : Json → List Char
  | .array [] => '[' :: ']' :: rest
  | .array (item :: more) =>
    '[' :: prettyItemsOnto (level + 1) (newLineOnto level (']' :: rest)) (item :: more)
  | .object [] => '\x7b' :: '\x7d' :: rest
  | .object (member :: more) =>
    '\x7b' :: prettyMembersOnto (level + 1) (newLineOnto level ('\x7d' :: rest)) (member :: more)
  | leaf => leafOnto rest leaf

/-- Items, a line for each, with commas between them. -/
def prettyItemsOnto (level : Nat) (rest : List Char) : List Json → List Char
  | [] => rest
  | [item] => newLineOnto level (item.prettyOnto level rest)
  | item :: next :: more =>
    newLineOnto level (item.prettyOnto level (',' :: prettyItemsOnto level rest (next :: more)))

/-- Members, a line for each, with commas between them. -/
def prettyMembersOnto (level : Nat) (rest : List Char) : List (String × Json) → List Char
  | [] => rest
  | [(key, value)] => newLineOnto level (quoteOnto key (':' :: ' ' :: value.prettyOnto level rest))
  | (key, value) :: next :: more =>
    newLineOnto level <| quoteOnto key <| ':' :: ' ' ::
      value.prettyOnto level (',' :: prettyMembersOnto level rest (next :: more))

end

/-- The text with a line for each item and member. -/
def pretty (value : Json) : String := String.ofList (value.prettyOnto 0 [])

end SyntaxGraph.Json
