/-!
# Characters of YAML texts

The classes that both reading and writing ask for.
-/

namespace SyntaxGraph.Yaml

/-- Characters that a text may hold. -/
def isAllowed (c : Char) : Bool :=
  c = '\t' || c = '\n' || c = '\r' || (' ' ≤ c && c ≤ '~') || c = '\u0085'
    || ('\u00a0' ≤ c && c ≤ '\ud7ff') || ('\ue000' ≤ c && c ≤ '\ufffd') || 0x10000 ≤ c.toNat

def byteOrderMark : Char := '\ufeff'

/-- The separators that end a line and keep their identity. -/
def isSeparator (c : Char) : Bool := c = '\u2028' || c = '\u2029'

/-- Characters that end a line, once line breaks are alike. -/
def isBreak (c : Char) : Bool := c = '\n' || isSeparator c

/-- A space or a tab. -/
def isGap (c : Char) : Bool := c = ' ' || c = '\t'

/-- Letters, digits, the hyphen and the underscore. -/
def isWordChar (c : Char) : Bool := c.isAlphanum || c = '-' || c = '_'

end SyntaxGraph.Yaml
