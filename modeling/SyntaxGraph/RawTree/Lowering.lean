import SyntaxGraph.Grammar.Schema
import SyntaxGraph.ParseError
import SyntaxGraph.RawTree
import SyntaxGraph.Span
import SyntaxGraph.Text.Slice
import SyntaxGraph.TreeOptions

/-!
# Lowering a syntax tree to a raw tree

A node's children are taken in document order, and each is *placed*: it is ignored, its text goes
into a field of tokens, or it is lowered in turn and goes into a field of nodes. The shape of a
field is the schema's; a field that the schema does not know holds a node if the child is named
and a token if not.

What was placed under one name becomes the value of one field, in the order in which the names
first occur. Then come the fields of the schema that nothing was placed in, and last what the
options add.

The walk stops at the first thing that is wrong: a node too deep, or a byte range that is no
slice of the source.
-/

namespace SyntaxGraph

/-- The field of the named children that the grammar gives no field. -/
def unnamedField : String := "children"

/-- The field of comments. -/
def commentsField : String := "comments"

/-- The attribute that holds the source text of a node without child nodes. -/
def textField : String := "text"

/-- What becomes of a child. -/
inductive Placement where
  | ignored
  /-- its text is kept in a field of tokens -/
  | token (field : String)
  /-- it is lowered and kept in a field of nodes -/
  | kept (field : String) (shape : FieldShape)
  deriving DecidableEq, Inhabited, Repr

/-- The shape of a field: the schema's, or what the child makes of an unknown field. -/
def fieldShape (schema : Option NodeSchema) (field : String) (child : NodeLabel) : FieldShape :=
  (schema.bind fun s => s.fields.get? field).getD (if child.isNamed then .child else .scalar)

/-- The place of a child among the fields of its parent. -/
def placement (options : TreeOptions) (schema : Option NodeSchema) (child : NodeLabel) :
    Placement :=
  if child.isExtra then
    if options.includeComments && child.kind = "comment" then .kept commentsField .childList
    else .ignored
  else
    match child.field with
    | some field =>
      match fieldShape schema field child with
      | .scalar => .token field
      | shape => if child.isNamed then .kept field shape else .ignored
    | none =>
      if child.isNamed then
        .kept unnamedField ((schema.bind (·.children)).getD .childList)
      else .ignored

/-- A value placed in a field, and the shape that the field has by this placement. -/
structure Placed where
  field : String
  shape : FieldShape
  value : RawValue
  deriving BEq, Inhabited

/-- The text of a scalar value. -/
def RawValue.scalarText? : RawValue → Option String
  | .scalar s => some s.display
  | _ => none

/-- What a field holds, given all that was placed in it: tokens are joined by blanks, and a field
for one node is a list only if several were placed in it. -/
def fieldValue : FieldShape → List RawValue → RawValue
  | .scalar, values => .scalar (.str (" ".intercalate (values.filterMap RawValue.scalarText?)))
  | .child, [value] => value
  | .child, values => .list values
  | .childList, values => .list values

/-- What a field of the schema holds when nothing was placed in it. -/
def emptyFieldValue : FieldShape → RawValue
  | .childList => .list []
  | _ => .null

/-- The fields that hold what was placed, in the order in which their names first occur. The
first placement decides the shape. -/
def placedFields (placed : List Placed) : List (String × RawValue) :=
  (placed.map (·.field)).eraseDups.map fun name =>
    let same := placed.filter (·.field = name)
    (name, fieldValue ((same.head?.map (·.shape)).getD .scalar) (same.map (·.value)))

/-- The fields of the schema under whose names nothing was placed, in order of their names. -/
def emptyFields (schema : Option NodeSchema) (placed : List Placed) : List (String × RawValue) :=
  match schema with
  | none => []
  | some s =>
    (s.fields.entries.filter fun f => !placed.any (·.field = f.1)).map fun f =>
      (f.1, emptyFieldValue f.2)

/-- The four position attributes. -/
def positionFields (span : Span) : List (String × RawValue) :=
  let word (w : UInt32) : RawValue := .scalar (.int (Int64.ofInt w.toNat))
  [("start_line", word span.startLine), ("start_col", word span.startCol),
    ("end_line", word span.endLine), ("end_col", word span.endCol)]

/-- What a syntax tree is lowered against. -/
structure Lowering where
  schema : GrammarSchema
  source : String
  options : TreeOptions

namespace Lowering

/-- The source text of a node. -/
def text (l : Lowering) (label : NodeLabel) : Except ParseError String :=
  match Text.sliceBytes l.source label.startByte label.endByte with
  | some text => .ok text
  | none => .error (.invalidRange label.kind label.startByte label.endByte)

/-- The text attribute, on a node that has no child nodes and no field of that name. -/
def leafText (l : Lowering) (label : NodeLabel) (raw : RawNode) :
    Except ParseError (List (String × RawValue)) :=
  if l.options.includeLeafText && !raw.hasNodeChildren && (raw.field? textField).isNone then
    (l.text label).map fun text => [(textField, .scalar (.str text))]
  else .ok []

/-- The raw node of a syntax node whose children have been placed. -/
def assemble (l : Lowering) (node : SyntaxNode) (placed : List Placed) :
    Except ParseError RawNode := do
  let schema := l.schema.node? node.kind
  let fields := placedFields placed ++ emptyFields schema placed
  let text ← l.leafText node.label ⟨node.kind, fields⟩
  let positions := if l.options.includePositions then positionFields node.span else []
  return ⟨node.kind, fields ++ text ++ positions⟩

mutual

/-- Lower a node at a level of the tree. -/
def lowerAt (l : Lowering) (depth : Nat) : SyntaxNode → Except ParseError RawNode
  | ⟨label, children⟩ =>
    if maxDepth < depth then .error (.fault (lineOfRow label.startPoint.row) .tooDeep)
    else do
      let placed ← l.placeChildren (depth + 1) (l.schema.node? label.kind) children
      l.assemble ⟨label, children⟩ placed

/-- Place the children of a node, whose level is `depth`, by the schema of their parent. -/
def placeChildren (l : Lowering) (depth : Nat) (schema : Option NodeSchema) :
    List SyntaxNode → Except ParseError (List Placed)
  | [] => .ok []
  | child :: rest =>
    match placement l.options schema child.label with
    | .ignored => l.placeChildren depth schema rest
    | .token field => do
      let text ← l.text child.label
      return ⟨field, .scalar, .scalar (.str text)⟩ :: (← l.placeChildren depth schema rest)
    | .kept field shape => do
      let raw ← l.lowerAt depth child
      return ⟨field, shape, raw.toValue⟩ :: (← l.placeChildren depth schema rest)

end

/-- Lower a tree from its root. -/
def lower (l : Lowering) (root : SyntaxNode) : Except ParseError RawNode := l.lowerAt 0 root

end Lowering

end SyntaxGraph
