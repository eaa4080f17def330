/-!
# Slices by byte offset

A syntax tree speaks of its source in byte offsets. `sliceBytes` cuts a text at two such offsets
and refuses offsets beyond the end, in the wrong order, or inside a character.
-/

namespace SyntaxGraph.Text

/-- The text after its first `count` bytes, if a character starts there or the text ends. -/
def dropBytes : Nat → List Char → Option (List Char)
  | 0, cs => some cs
  | _ + 1, [] => none
  | count + 1, c :: cs =>
    if c.utf8Size ≤ count + 1 then dropBytes (count + 1 - c.utf8Size) cs else none

/-- The first `count` bytes of a text, if they end at the end of a character. -/
def takeBytes : Nat → List Char → Option (List Char)
  | 0, _ => some []
  | _ + 1, [] => none
  | count + 1, c :: cs =>
    if c.utf8Size ≤ count + 1 then (takeBytes (count + 1 - c.utf8Size) cs).map (c :: ·) else none

/-- The bytes from `start` up to `stop` of a text, when both are bounds of characters. -/
def sliceBytes (s : String) (start stop : Nat) : Option String :=
  if start ≤ stop then
    ((dropBytes start s.toList).bind (takeBytes (stop - start))).map String.ofList
  else none

end SyntaxGraph.Text
