import SyntaxGraph.Text.CaseTables

/-!
# Lowercasing of whole texts

Every character is replaced by its full lowercase form. Two characters are not simple: U+0130
becomes an `i` followed by a combining dot, and a capital sigma becomes the final form `ς` at the
end of a word and `σ` elsewhere.
-/

namespace SyntaxGraph.Text

/-- A code point lies in one of the ranges. -/
def inRanges (ranges : List (Nat × Nat)) (c : Char) : Bool :=
  ranges.any fun r => r.1 ≤ c.toNat && c.toNat ≤ r.2

/-- Letters with a case. -/
def isCased (c : Char) : Bool := inRanges casedRanges c

/-- Characters that a word's case looks through. -/
def isCaseIgnorable (c : Char) : Bool := inRanges caseIgnorableRanges c

/-- The run that moves a code point. -/
def lowercaseRun? (c : Nat) : Option CaseRun :=
  lowercaseRuns.find? fun r => r.first ≤ c && c ≤ r.last && (c - r.first) % r.stride = 0

/-- The lowercase form of one character, out of context. -/
def lowercaseChar (c : Char) : List Char :=
  if c = '\u0130' then ['i', '\u0307']
  else match lowercaseRun? c.toNat with
    | some run => [Char.ofNat (c.toNat + run.delta).toNat]
    | none => [c]

/-- The first character that is not looked through has a case. -/
def startsCased (cs : List Char) : Bool :=
  (cs.dropWhile isCaseIgnorable).head?.any isCased

/-- A sigma is final when a cased letter comes before it and none after it. -/
def isFinalSigma (before after : List Char) : Bool :=
  startsCased before && !startsCased after

/-- The lowercase form of a text, `before` being what precedes it, nearest first. -/
def lowercaseAfter (before : List Char) : List Char → List Char
  | [] => []
  | c :: rest =>
    (if c = 'Σ' then [if isFinalSigma before rest then 'ς' else 'σ'] else lowercaseChar c)
      ++ lowercaseAfter (c :: before) rest

/-- The lowercase form of a text. -/
def lowercase (s : String) : String := String.ofList (lowercaseAfter [] s.toList)

end SyntaxGraph.Text
