import SyntaxGraph.Grammar.Python
import SyntaxGraph.RawTree.Lowering
import SyntaxGraph.SyntaxNode.Search
import SyntaxGraph.Text.Blank

/-!
# Parsers of source texts

A `SourceParser` takes a source to its raw tree. `pythonParser` builds one from a function that
gives the syntax tree of a source. It refuses a tree with an error, naming the first one in
document order, and a tree with a statement that is no longer part of the language; any other
tree is lowered.
-/

namespace SyntaxGraph

/-- A parser of a language. -/
structure SourceParser where
  language : String
  parse : String → Except ParseError RawNode

namespace SyntaxNode

/-- The node is what an error looks like: text that fits no rule, or a node put in. -/
def isFaulty (n : SyntaxNode) : Bool := n.label.isError || n.label.isMissing

/-- The source text of a node without blanks around it. -/
def trimmedText? (source : String) (n : SyntaxNode) : Option String :=
  (Text.sliceBytes source n.label.startByte n.label.endByte).map Text.trim

/-- What is wrong at a faulty node. A token is named only if the node has at most one child. -/
def faultAt (source : String) (n : SyntaxNode) : SyntaxFault :=
  if n.label.isMissing then .expected n.kind
  else if n.children.length ≤ 1 then
    match n.trimmedText? source with
    | some token => if token.isEmpty then .invalid else .unexpected token
    | none => .invalid
  else .invalid

/-- The line that a node starts on. -/
def startLine (n : SyntaxNode) : UInt32 := n.span.startLine

/-- The first faulty node in document order, looking only below nodes that have an error. -/
def firstFaulty? (root : SyntaxNode) : Option SyntaxNode :=
  root.findFirst isFaulty fun n => n.label.hasError

/-- The failure of a tree that has an error: its first faulty node, or else its root. -/
def firstFault (source : String) (root : SyntaxNode) : ParseError :=
  match root.firstFaulty? with
  | some n => .fault n.startLine (n.faultAt source)
  | none => .fault root.startLine .invalid

end SyntaxNode

/-- Statements that have become function calls: kind of node and keyword. -/
def oldStatements : List (String × String) :=
  [("print_statement", "print"), ("exec_statement", "exec")]

/-- The keyword of an old statement. -/
def SyntaxNode.oldKeyword? (n : SyntaxNode) : Option String := oldStatements.lookup n.kind

/-- The failure of a tree with an old statement: the first one in document order. -/
def SyntaxNode.firstOldStatement? (root : SyntaxNode) : Option ParseError := do
  let n ← root.findFirst (fun n => n.oldKeyword?.isSome) fun _ => true
  let keyword ← n.oldKeyword?
  return .fault n.startLine (.missingParentheses keyword)

/-- The raw tree of a source with this syntax tree. -/
def pythonRawTree (options : TreeOptions) (source : String) (root : SyntaxNode) :
    Except ParseError RawNode :=
  if root.label.hasError then .error (root.firstFault source)
  else
    match root.firstOldStatement? with
    | some e => .error e
    | none => Lowering.lower ⟨pythonSchema, source, options⟩ root

/-- The parser of Python sources whose syntax trees `tree?` gives. -/
def pythonParser (tree? : String → Option SyntaxNode) (options : TreeOptions) : SourceParser where
  language := "python"
  parse source :=
    match tree? source with
    | none => .error .noTree
    | some root => pythonRawTree options source root

end SyntaxGraph
