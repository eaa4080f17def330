import SyntaxGraph.FlatTree

/-!
# Rebuilding the nested view

`FlatTree.rebuild` makes the nested view anew from the two lists alone. The root is the one entry
whose number no link targets. The children of a node are the targets of its links, in the order
of the links; a link to an unlisted number is passed over, and of two entries with one number the
later is meant.

Links can form a circle below the root. Such a tree has no nested view: a chain of links longer
than the list of nodes goes through some number twice, so the rebuilding stops there.
-/

namespace SyntaxGraph

/-- Why two lists have no nested view. -/
inductive RebuildError where
  /-- not exactly one entry is targeted by no link -/
  | noUniqueRoot
  /-- a chain of links from the root never ends -/
  | endless
  deriving DecidableEq, Inhabited, Repr

namespace FlatTree

/-- The entry that a number means. -/
def entry? (t : FlatTree) (id : NodeId) : Option Entry := (t.nodes.filter (·.id = id)).getLast?

/-- The links from a number, in order. -/
def linksFrom (t : FlatTree) (id : NodeId) : List Link := t.links.filter (·.source = id)

/-- The entries that the links from a number lead to, each with its field. -/
def childEntries (t : FlatTree) (id : NodeId) : List (Entry × String) :=
  (t.linksFrom id).filterMap fun link => (t.entry? link.target).map (·, link.field)

/-- The entries that no link targets. -/
def roots (t : FlatTree) : List Entry :=
  t.nodes.filter fun n => !t.links.any fun l => l.target = n.id

/-- The nested view below an entry, whose chains of links have at most `height` entries. -/
def grow (t : FlatTree) : (height : Nat) → Entry → Option String → Except RebuildError Hierarchy
  | 0, _, _ => .error .endless
  | height + 1, entry, field => do
    let children ← (t.childEntries entry.id).mapM fun (child, via) =>
      t.grow height child (some via)
    return ⟨entry, someUnlessEmpty children, field⟩

/-- The nested view that the two lists describe. -/
def rebuild (t : FlatTree) : Except RebuildError Hierarchy :=
  match t.roots with
  | [root] => t.grow t.nodes.length root none
  | _ => .error .noUniqueRoot

end FlatTree

end SyntaxGraph
