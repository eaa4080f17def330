import SyntaxGraph.SortedMap

/-!
# Grammar schemas

For every kind of node that a grammar names, a schema lists the fields of such a node with the
shape of what each holds. Lowering files a node's children by this table.

A schema is built from the entries of a grammar's node types: of two entries of one kind the
later counts, and entries of anonymous tokens are left out.
-/

namespace SyntaxGraph

/-- The shape of what a field holds. -/
inductive FieldShape where
  /-- anonymous tokens only: operators, keywords -/
  | scalar
  /-- at most one named node -/
  | child
  /-- named nodes in a row -/
  | childList
  deriving DecidableEq, Inhabited, Repr

/-- The fields of one kind of node. -/
structure NodeSchema where
  /-- the shapes of the fields, by name -/
  fields : SortedMap FieldShape
  /-- the shape of what the named children without a field form, if there can be any -/
  children : Option FieldShape
  deriving BEq, Inhabited

/-- The fields of every kind of node that a grammar names. -/
structure GrammarSchema where
  nodes : SortedMap NodeSchema
  deriving BEq, Inhabited

/-- What a grammar says of a field, or of the children without a field. -/
structure ChildSpec where
  /-- there can be several -/
  multiple : Bool
  /-- for each type of node that can stand there, whether it is named -/
  namedTypes : List Bool
  deriving DecidableEq, Inhabited, Repr

/-- What a grammar says of a type of node. -/
structure NodeType where
  kind : String
  isNamed : Bool
  /-- the fields in the order of the grammar's listing; of two with one name the later counts -/
  fields : List (String × ChildSpec)
  children : Option ChildSpec
  deriving DecidableEq, Inhabited, Repr

/-- Without a named type only tokens can stand there, whose text is kept. -/
def ChildSpec.shape (spec : ChildSpec) : FieldShape :=
  if spec.namedTypes.all (!·) then .scalar else if spec.multiple then .childList else .child

/-- The fields of a type of node. -/
def NodeType.schema (t : NodeType) : NodeSchema where
  fields := SortedMap.ofList (t.fields.map fun f => (f.1, f.2.shape))
  children := t.children.map ChildSpec.shape

namespace GrammarSchema

/-- The schema of a listing of node types. -/
def ofTypes (types : List NodeType) : GrammarSchema where
  nodes := SortedMap.ofList ((types.filter (·.isNamed)).map fun t => (t.kind, t.schema))

/-- The fields of a kind of node. -/
def node? (schema : GrammarSchema) (kind : String) : Option NodeSchema := schema.nodes.get? kind

def size (schema : GrammarSchema) : Nat := schema.nodes.size

end GrammarSchema

end SyntaxGraph
