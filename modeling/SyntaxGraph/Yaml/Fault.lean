/-!
# Faults of YAML texts
-/

namespace SyntaxGraph.Yaml

/-- Why a text is no YAML document, or not one of the expected form. -/
inductive Fault where
  | forbiddenCharacter
  | unexpectedCharacter
  /-- a tab where only spaces can indent -/
  | tabIndent
  /-- a key without its colon -/
  | missingColon
  /-- a key or a value where none can stand -/
  | misplaced
  | sequence
  | unterminated
  | escape
  | blockHeader
  | anchor
  | tag
  | directive
  /-- the tokens do not form one document -/
  | malformed
  | unknownAlias
  /-- a value that is not of the expected kind -/
  | mismatch
  | unknownKey (key : String)
  | repeatedKey (key : String)
  deriving DecidableEq, Inhabited, Repr

def Fault.message : Fault → String
  | .forbiddenCharacter => "control characters are not allowed"
  | .unexpectedCharacter => "found character that cannot start any token"
  | .tabIndent => "found a tab character where an indentation space is expected"
  | .missingColon => "could not find expected ':'"
  | .misplaced => "a key or value is not allowed in this context"
  | .sequence => "a sequence is not expected here"
  | .unterminated => "found unexpected end of a scalar"
  | .escape => "found unknown escape character"
  | .blockHeader => "did not find expected comment or line break"
  | .anchor => "did not find expected alphabetic or numeric character"
  | .tag => "did not find expected tag"
  | .directive => "did not find expected directive"
  | .malformed => "did not find expected node content"
  | .unknownAlias => "unknown anchor"
  | .mismatch => "invalid type"
  | .unknownKey key => "unknown field " ++ key
  | .repeatedKey key => "duplicate field " ++ key

end SyntaxGraph.Yaml
