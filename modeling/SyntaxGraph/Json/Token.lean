import SyntaxGraph.Json.Number
import SyntaxGraph.Text.Hexadecimal

/-!
# Tokens of a JSON text

`lex` splits a text into tokens. The characters of a string are kept as written, escaped
code units apart from plain characters: whether its escapes form a text is decided only where
the string is used.
-/

namespace SyntaxGraph.Json

/-- One written character of a string. -/
inductive StringPart where
  | char (c : Char)
  /-- a code unit given by four hexadecimal digits -/
  | codeUnit (u : Nat)
  deriving BEq, Inhabited

/-- A token. -/
inductive Token where
  | openArray
  | closeArray
  | openObject
  | closeObject
  | comma
  | colon
  | null
  | bool (value : Bool)
  | number (token : NumberToken)
  | string (parts : List StringPart)
  deriving BEq, Inhabited

/-- White space between tokens. -/
def isSpace (c : Char) : Bool := c = ' ' || c = '\n' || c = '\t' || c = '\r'

/-- The code unit of four hexadecimal digits. -/
def codeUnit? (a b c d : Char) : Option Nat :=
  [a, b, c, d].foldlM (fun n digit => (Text.hexValue? digit).map (n * 16 + ·)) 0

/-- The character of a two-character escape. -/
def simpleEscape? : Char → Option Char
  | '"' => some '"'
  | '\\' => some '\\'
  | '/' => some '/'
  | 'b' => some '\x08'
  | 'f' => some '\x0c'
  | 'n' => some '\n'
  | 'r' => some '\r'
  | 't' => some '\t'
  | _ => none

/-- The parts of a string up to its closing quote, and the text after it. Control characters
have to be escaped. -/
def lexString (done : List StringPart) : List Char → Except TextError (List StringPart × List Char)
  | [] => .error .malformed
  | '"' :: rest => .ok (done.reverse, rest)
  | '\\' :: 'u' :: a :: b :: c :: d :: rest =>
    match codeUnit? a b c d with
    | some u => lexString (.codeUnit u :: done) rest
    | none => .error .malformed
  | '\\' :: c :: rest =>
    match simpleEscape? c with
    | some e => lexString (.char e :: done) rest
    | none => .error .malformed
  | c :: rest => if c < ' ' then .error .malformed else lexString (.char c :: done) rest

theorem length_lt_of_lexString {done parts : List StringPart} {cs rest : List Char}
    (h : lexString done cs = .ok (parts, rest)) : rest.length < cs.length := by
  fun_induction lexString done cs <;> simp_all <;> grind

/-- The leading digits of a text and what follows them. -/
def spanDigits (cs : List Char) : List Char × List Char :=
  (cs.takeWhile Char.isDigit, cs.dropWhile Char.isDigit)

theorem length_spanDigits (cs : List Char) : (spanDigits cs).2.length ≤ cs.length :=
  (List.dropWhile_suffix _).length_le

/-- The fraction at the start of a text: a point and at least one digit, or nothing. -/
def lexFraction : List Char → Option (List Char × List Char)
  | '.' :: rest =>
    let (digits, rest) := spanDigits rest
    if digits.isEmpty then none else some (digits, rest)
  | cs => some ([], cs)

theorem length_le_of_lexFraction {cs digits rest : List Char}
    (h : lexFraction cs = some (digits, rest)) : rest.length ≤ cs.length := by
  unfold lexFraction at h
  split at h
  · rename_i tail
    have := length_spanDigits tail
    grind
  · grind

/-- The exponent at the start of a text: its sign and at least one digit, or nothing. -/
def lexExponent : List Char → Option (Option (Bool × List Char) × List Char)
  | c :: rest =>
    if c = 'e' || c = 'E' then
      let (minus, rest) := match rest with
        | '+' :: r => (false, r)
        | '-' :: r => (true, r)
        | r => (false, r)
      let (digits, rest) := spanDigits rest
      if digits.isEmpty then none else some (some (minus, digits), rest)
    else some (none, c :: rest)
  | [] => some (none, [])

theorem length_le_of_lexExponent {cs rest : List Char} {e : Option (Bool × List Char)}
    (h : lexExponent cs = some (e, rest)) : rest.length ≤ cs.length := by
  unfold lexExponent at h
  split at h
  · rename_i c tail
    split at h
    · have hd := fun l => length_spanDigits l
      grind
    · grind
  · grind

/-- The whole digits at the start of a text; a zero stands alone. -/
def lexWhole (cs : List Char) : Option (List Char × List Char) :=
  match spanDigits cs with
  | ([], _) => none
  | ('0' :: _ :: _, _) => none
  | (digits, rest) => some (digits, rest)

theorem length_lt_of_lexWhole {cs digits rest : List Char}
    (h : lexWhole cs = some (digits, rest)) : rest.length < cs.length := by
  have hsplit : (cs.takeWhile Char.isDigit).length + (cs.dropWhile Char.isDigit).length
      = cs.length := by
    rw [← List.length_append, List.takeWhile_append_dropWhile]
  unfold lexWhole spanDigits at h
  split at h
  · cases h
  · cases h
  · rename_i ds tail hne _ heq
    obtain ⟨rfl, rfl⟩ := Prod.mk.inj heq
    obtain ⟨rfl, rfl⟩ := Prod.mk.inj (Option.some.inj h)
    have : (cs.takeWhile Char.isDigit).length ≠ 0 := fun h0 =>
      hne (List.length_eq_zero_iff.1 h0)
    omega

/-- The number at the start of a text without sign. -/
def lexUnsigned (negative : Bool) (cs : List Char) : Option (NumberToken × List Char) := do
  let (whole, cs) ← lexWhole cs
  let (fraction, cs) ← lexFraction cs
  let (exponent, cs) ← lexExponent cs
  return (⟨negative, whole, fraction, exponent⟩, cs)

theorem length_lt_of_lexUnsigned {negative : Bool} {cs rest : List Char} {t : NumberToken}
    (h : lexUnsigned negative cs = some (t, rest)) : rest.length < cs.length := by
  simp only [lexUnsigned, Option.bind_eq_bind, Option.bind_eq_some_iff, Option.pure_def,
    Option.some.injEq, Prod.mk.injEq, Prod.exists] at h
  obtain ⟨w, c₁, h₁, f, c₂, h₂, e, c₃, h₃, -, rfl⟩ := h
  exact Nat.lt_of_le_of_lt (length_le_of_lexExponent h₃)
    (Nat.lt_of_le_of_lt (length_le_of_lexFraction h₂) (length_lt_of_lexWhole h₁))

/-- The punctuation mark that a character is. -/
def punctuation? (c : Char) : Option Token :=
  if c = '[' then some .openArray
  else if c = ']' then some .closeArray
  else if c = '\x7b' then some .openObject
  else if c = '\x7d' then some .closeObject
  else if c = ',' then some .comma
  else if c = ':' then some .colon
  else none

/-- The token at the start of a text that is not a punctuation mark, and the text after it. -/
def lexWord : List Char → Except TextError (Token × List Char)
  | '"' :: rest =>
    match lexString [] rest with
    | .ok (parts, rest) => .ok (.string parts, rest)
    | .error e => .error e
  | 't' :: 'r' :: 'u' :: 'e' :: rest => .ok (.bool true, rest)
  | 'f' :: 'a' :: 'l' :: 's' :: 'e' :: rest => .ok (.bool false, rest)
  | 'n' :: 'u' :: 'l' :: 'l' :: rest => .ok (.null, rest)
  | '-' :: rest =>
    match lexUnsigned true rest with
    | some (token, rest) => .ok (.number token, rest)
    | none => .error .malformed
  | cs =>
    match lexUnsigned false cs with
    | some (token, rest) => .ok (.number token, rest)
    | none => .error .malformed

theorem length_lt_of_lexWord {cs rest : List Char} {t : Token}
    (h : lexWord cs = .ok (t, rest)) : rest.length < cs.length := by
  unfold lexWord at h
  split at h
  · split at h
    · rename_i hs
      have := length_lt_of_lexString hs
      grind
    · cases h
  · grind
  · simp at h; grind
  · simp at h; grind
  · split at h
    · rename_i hs
      have := length_lt_of_lexUnsigned hs
      grind
    · cases h
  · split at h
    · rename_i hs
      have := length_lt_of_lexUnsigned hs
      grind
    · cases h

/-- The tokens of a text, after those already found. -/
def lexAfter (done : List Token) (cs : List Char) : Except TextError (List Token) :=
  match cs with
  | [] => .ok done.reverse
  | c :: rest =>
    if isSpace c then lexAfter done rest
    else
      match punctuation? c with
      | some token => lexAfter (token :: done) rest
      | none =>
        match _h : lexWord (c :: rest) with
        | .ok (token, rest') => lexAfter (token :: done) rest'
        | .error e => .error e
termination_by cs.length
decreasing_by
  · simp
  · simp
  · exact length_lt_of_lexWord (by assumption)

def lex (s : String) : Except TextError (List Token) := lexAfter [] s.toList

end SyntaxGraph.Json
