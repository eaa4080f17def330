import SyntaxGraph.Json.Token

/-!
# JSON texts as they are written

A `Written` value is a JSON text without its white space: numbers and strings are still tokens,
and the members of an object stand in the order of the text, repeated keys included. It can be
nested to any depth. `Written.toJson` takes it to the value it denotes, or says why it denotes
none.

Two stages keep the rules apart. A reader that skips a part of a text only asks that the part is
well formed; a reader that uses it also asks for a string without lone surrogates, for numbers
in range and for a bounded depth.
-/

namespace SyntaxGraph.Json

/-- A JSON text without its white space. -/
inductive Written where
  | null
  | bool (value : Bool)
  | number (token : NumberToken)
  | string (parts : List StringPart)
  | array (items : List Written)
  | object (members : List (List StringPart × Written))
  deriving Inhabited

/-! ## Assembling tokens -/

/-- A container that is still open; what it holds so far is listed backwards. -/
inductive OpenContainer where
  | array (items : List Written)
  /-- with the key whose value is awaited -/
  | object (members : List (List StringPart × Written)) (key : List StringPart)

/-- What may come next, inside the open containers, innermost first. -/
inductive Awaiting where
  | value (outer : List OpenContainer)
  /-- a first item or the end of the array -/
  | firstItem (outer : List OpenContainer)
  /-- a first key or the end of the object -/
  | firstKey (outer : List OpenContainer)
  /-- a key, after the members so far -/
  | key (members : List (List StringPart × Written)) (outer : List OpenContainer)
  | colon (members : List (List StringPart × Written)) (key : List StringPart)
      (outer : List OpenContainer)
  /-- a comma or the end of the innermost container -/
  | separator (innermost : OpenContainer) (outer : List OpenContainer)
  /-- nothing: the value is complete -/
  | nothing (value : Written)

namespace Awaiting

/-- Put a complete value into the innermost container. -/
def complete (v : Written) : List OpenContainer → Awaiting
  | [] => .nothing v
  | .array items :: outer => .separator (.array (v :: items)) outer
  | .object members k :: outer => .separator (.object ((k, v) :: members) k) outer

/-- A value starts with this token. -/
def start (outer : List OpenContainer) : Token → Except TextError Awaiting
  | .null => .ok (complete .null outer)
  | .bool b => .ok (complete (.bool b) outer)
  | .number t => .ok (complete (.number t) outer)
  | .string parts => .ok (complete (.string parts) outer)
  | .openArray => .ok (.firstItem outer)
  | .openObject => .ok (.firstKey outer)
  | _ => .error .malformed

/-- Take one token. -/
def step : Awaiting → Token → Except TextError Awaiting
  | .value outer, t => start outer t
  | .firstItem outer, .closeArray => .ok (complete (.array []) outer)
  | .firstItem outer, t => start (.array [] :: outer) t
  | .firstKey outer, .closeObject => .ok (complete (.object []) outer)
  | .firstKey outer, .string k => .ok (.colon [] k outer)
  | .key members outer, .string k => .ok (.colon members k outer)
  | .colon members k outer, .colon => .ok (.value (.object members k :: outer))
  | .separator (.array items) outer, .comma => .ok (.value (.array items :: outer))
  | .separator (.array items) outer, .closeArray =>
    .ok (complete (.array items.reverse) outer)
  | .separator (.object members _) outer, .comma => .ok (.key members outer)
  | .separator (.object members _) outer, .closeObject =>
    .ok (complete (.object members.reverse) outer)
  | _, _ => .error .malformed

end Awaiting

namespace Written

/-- Assemble the tokens of one value; nothing may follow it. -/
def ofTokens (tokens : List Token) : Except TextError Written := do
  match ← tokens.foldlM Awaiting.step (.value []) with
  | .nothing value => .ok value
  | _ => .error .malformed

def ofText (s : String) : Except TextError Written := do ofTokens (← lex s)

/-! ## Values -/

def isHighSurrogate (u : Nat) : Bool := 0xD800 ≤ u && u < 0xDC00

def isLowSurrogate (u : Nat) : Bool := 0xDC00 ≤ u && u < 0xE000

/-- The characters of a string, after those already found; the halves of a surrogate pair stand
side by side or not at all. -/
def charsAfter (done : List Char) : List StringPart → Except TextError (List Char)
  | [] => .ok done.reverse
  | .char c :: rest => charsAfter (c :: done) rest
  | .codeUnit u :: .codeUnit v :: rest =>
    if isHighSurrogate u && isLowSurrogate v then
      charsAfter (Char.ofNat (0x10000 + (u - 0xD800) * 0x400 + (v - 0xDC00)) :: done) rest
    else if isHighSurrogate u || isLowSurrogate u then .error .loneSurrogate
    else charsAfter (Char.ofNat u :: done) (.codeUnit v :: rest)
  | .codeUnit u :: rest =>
    if isHighSurrogate u || isLowSurrogate u then .error .loneSurrogate
    else charsAfter (Char.ofNat u :: done) rest

def text (parts : List StringPart) : Except TextError String :=
  (charsAfter [] parts).map String.ofList

mutual

/-- The value that a text denotes, when containers are nested at most `levels` deep. Members are
put in key order; of members with one key the last counts. -/
def toJson (levels : Nat) : Written → Except TextError Json
  | .null => .ok .null
  | .bool b => .ok (.bool b)
  | .number t => t.value.map .number
  | .string parts => (text parts).map .string
  | .array items =>
    match levels with
    | 0 => .error .tooDeep
    | levels + 1 => (itemsToJson levels items).map .array
  | .object members =>
    match levels with
    | 0 => .error .tooDeep
    | levels + 1 =>
      (membersToJson levels members).map fun ms => .object (SortedMap.ofList ms).entries

def itemsToJson (levels : Nat) : List Written → Except TextError (List Json)
  | [] => .ok []
  | item :: rest => do return (← item.toJson levels) :: (← itemsToJson levels rest)

def membersToJson (levels : Nat) :
    List (List StringPart × Written) → Except TextError (List (String × Json))
  | [] => .ok []
  | (key, value) :: rest => do
    return ((← text key), (← value.toJson levels)) :: (← membersToJson levels rest)

end

end Written

/-- The deepest nesting of arrays and objects in a text from outside. -/
def maxNesting : Nat := 127

/-- The value of a JSON text from outside: nested at most `maxNesting` deep. -/
def ofText (s : String) : Except TextError Json := do (← Written.ofText s).toJson maxNesting

end SyntaxGraph.Json
