/-!
# YAML tokens

The tokens of a document whose values are mappings and scalars. Where an indentation starts and
ends a block mapping is a token of its own.
-/

namespace SyntaxGraph.Yaml

/-- How a scalar is written. -/
inductive Style where
  | plain
  | quoted
  | literal
  | folded
  deriving DecidableEq, Inhabited, Repr

/-- A token. Tags are lists of octets, each written as the character of its number. -/
inductive Token where
  | versionDirective (major minor : Nat)
  | tagDirective (handle start : String)
  | documentStart
  | documentEnd
  | mappingStart
  | blockEnd
  | flowStart
  | flowEnd
  | flowEntry
  | key
  | value
  | alias (name : String)
  | anchor (name : String)
  | tag (handle suffix : String)
  | scalar (style : Style) (text : String)
  deriving DecidableEq, Inhabited, Repr

end SyntaxGraph.Yaml
