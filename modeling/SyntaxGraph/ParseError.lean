import SyntaxGraph.Config.Error

/-!
# Failures of a parse

A *fault* is something wrong with the source itself and is reported with the line that it starts
on. Every other failure is one of the parser, of its schema, of the configuration or of reading.
-/

namespace SyntaxGraph

/-- Deepest level that a lowered tree may have, the root being level 0. -/
def maxDepth : Nat := 256

/-- What is wrong with a source. -/
inductive SyntaxFault where
  /-- the parser had to insert a node of this kind -/
  | expected (kind : String)
  /-- a single token that fits nowhere -/
  | unexpected (token : String)
  /-- a stretch of text that fits no rule -/
  | invalid
  /-- a statement that has become a function call -/
  | missingParentheses (keyword : String)
  /-- nodes below level `maxDepth` -/
  | tooDeep
  /-- a fault in the words of another parser -/
  | reported (words : String)
  deriving DecidableEq, Inhabited, Repr

def SyntaxFault.message : SyntaxFault → String
  | .expected kind => "expected '" ++ kind ++ "'"
  | .unexpected token => "unexpected '" ++ token ++ "'"
  | .invalid => "invalid syntax"
  | .missingParentheses keyword =>
    "Missing parentheses in call to '" ++ keyword ++ "'. Did you mean " ++ keyword ++ "(...)?"
  | .tooDeep => "too many nested levels (limit " ++ toString maxDepth ++ ")"
  | .reported words => words

/-- Why a source has no tree. -/
inductive ParseError where
  /-- the source is at fault, on this line -/
  | fault (line : UInt32) (what : SyntaxFault)
  /-- the byte range of a node is no slice of the text -/
  | invalidRange (kind : String) (startByte endByte : Nat)
  /-- the parser has no answer -/
  | noTree
  /-- a failure in the words of another parser -/
  | parser (words : String)
  | schema (words : String)
  | config (cause : ConfigError)
  | io (cause : IoError)
  deriving DecidableEq, Inhabited, Repr

namespace ParseError

def message : ParseError → String
  | .fault line what => "Syntax Error at line " ++ toString line.toNat ++ ": " ++ what.message
  | .invalidRange kind startByte endByte =>
    "node '" ++ kind ++ "' spans invalid byte range " ++ toString startByte ++ ".."
      ++ toString endByte
  | .noTree => "Failed to parse source code"
  | .parser words => words
  | .schema words => "Schema error: " ++ words
  | .config cause => "Configuration error: " ++ cause.message
  | .io cause => "IO error: " ++ cause.message

/-- The source is at fault. -/
def isFault : ParseError → Bool
  | .fault .. => true
  | _ => false

end ParseError

end SyntaxGraph
