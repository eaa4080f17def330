import SyntaxGraph.Proofs.KeptNodes
import SyntaxGraph.Proofs.Placement

/-!
# What lowering ignores has no influence

Lowering never looks at some parts of a tree: at extra nodes other than comments that are wanted, at
tokens that stand in no field or among the nodes of a field, and at what lies below a node whose
text is kept as a token. `Lowering.Ignored` says where these parts of a tree are.

**Theorem (`lower_prune`).** Cut any of them out of a tree, as many as one likes: lowering then has
the same outcome, the same raw tree or the same error.

What may be cut out can hold anything: named nodes, comments, byte ranges that are no slice of the
source, or nodes that are too deep. The proof goes down the two trees together. A child that is cut
out would have been ignored (`placement_of_passedOver`); a child that stays has its label, so it is
placed in the same way (`placeChildren_pruneList`), and what was cut out below it is ignored again,
unless the child is a token, of which only the label is read.
-/

namespace SyntaxGraph

/-! ## Cutting subtrees out -/

namespace SyntaxNode

mutual

/-- The tree without the subtrees at the positions to cut. A position says which child to take at
each step down from the root, and is that of the tree before anything is cut. -/
def prune : (cut : List Nat → Bool) → SyntaxNode → SyntaxNode
  | cut, ⟨label, children⟩ => ⟨label, pruneList cut 0 children⟩

/-- `prune` among the children of a node, from the child at position `i` on. -/
def pruneList : (cut : List Nat → Bool) → (i : Nat) → List SyntaxNode → List SyntaxNode
  | _, _, [] => []
  | cut, i, child :: rest =>
    if cut [i] then pruneList cut (i + 1) rest
    else child.prune (fun position => cut (i :: position)) :: pruneList cut (i + 1) rest

end

theorem prune_eq (cut : List Nat → Bool) (n : SyntaxNode) :
    n.prune cut = ⟨n.label, pruneList cut 0 n.children⟩ := by
  cases n
  rw [prune]

@[simp]
theorem label_prune (cut : List Nat → Bool) (n : SyntaxNode) : (n.prune cut).label = n.label := by
  rw [prune_eq]

end SyntaxNode

/-! ## Parts that are ignored -/

/-- A child that is passed over together with all that lies below it. -/
inductive PassedOver (options : TreeOptions) (schema : Option NodeSchema) (child : NodeLabel) : Prop
  /-- an extra node, if it is no comment that is wanted -/
  | extra (isExtra : child.isExtra = true)
      (unwanted : ¬ (options.includeComments = true ∧ child.kind = "comment"))
  /-- an anonymous node without a field -/
  | noField (notExtra : child.isExtra = false) (anonymous : child.isNamed = false)
      (unnamed : child.field = none)
  /-- an anonymous node in a field of nodes -/
  | amongNodes (notExtra : child.isExtra = false) (anonymous : child.isNamed = false)
      {field : String} (inField : child.field = some field)
      (nodes : shapeIn? schema field = some .child ∨ shapeIn? schema field = some .childList)

/-- A child in a field of tokens. -/
structure InTokenField (schema : Option NodeSchema) (child : NodeLabel) : Prop where
  notExtra : child.isExtra = false
  tokens : ∃ field, child.field = some field ∧ shapeIn? schema field = some .scalar

/-- The subtree at a position below a node is ignored. -/
inductive Lowering.Ignored (l : Lowering) : SyntaxNode → List Nat → Prop
  /-- a child that is passed over -/
  | child {n c : SyntaxNode} {i : Nat} (isChild : n.children[i]? = some c)
      (passed : PassedOver l.options (l.schema.node? n.kind) c.label) : Ignored l n [i]
  /-- anything below a token -/
  | belowToken {n c : SyntaxNode} {i : Nat} {position : List Nat}
      (isChild : n.children[i]? = some c)
      (token : InTokenField (l.schema.node? n.kind) c.label) (proper : position ≠ []) :
      Ignored l n (i :: position)
  /-- what is ignored below a child -/
  | deeper {n c : SyntaxNode} {i : Nat} {position : List Nat} (isChild : n.children[i]? = some c)
      (below : Ignored l c position) : Ignored l n (i :: position)

section

variable {options : TreeOptions} {schema : Option NodeSchema} {child : NodeLabel}

theorem placement_of_passedOver (h : PassedOver options schema child) :
    placement options schema child = .ignored := by
  cases h with
  | extra isExtra unwanted =>
    rw [placement_of_extra isExtra, if_neg]
    simpa using unwanted
  | noField notExtra anonymous unnamed =>
    rw [placement_of_no_field notExtra unnamed, anonymous]
    rfl
  | @amongNodes notExtra anonymous field inField nodes =>
    have hshape : fieldShape schema field child ≠ .scalar := by
      rcases nodes with hchild | hlist
      · rw [fieldShape_eq hchild]
        exact nofun
      · rw [fieldShape_eq hlist]
        exact nofun
    rw [placement_of_field notExtra inField, if_neg hshape, anonymous]
    rfl

theorem placement_of_inTokenField (options : TreeOptions) (h : InTokenField schema child) :
    ∃ field, placement options schema child = .token field := by
  obtain ⟨field, hfield, hshape⟩ := h.tokens
  refine ⟨field, ?_⟩
  rw [placement_of_field h.notExtra hfield, if_pos (fieldShape_eq hshape)]

end

namespace Lowering

variable {l : Lowering} {n c : SyntaxNode} {i : Nat} {position : List Nat}

theorem not_ignored_nil : ¬ l.Ignored n [] := nofun

theorem Ignored.cases_child (h : l.Ignored n (i :: position)) (isChild : n.children[i]? = some c) :
    (position = [] ∧ PassedOver l.options (l.schema.node? n.kind) c.label) ∨
    (position ≠ [] ∧ InTokenField (l.schema.node? n.kind) c.label) ∨ l.Ignored c position := by
  cases h with
  | child isChild' passed =>
    cases isChild.symm.trans isChild'
    exact .inl ⟨rfl, passed⟩
  | belowToken isChild' token proper =>
    cases isChild.symm.trans isChild'
    exact .inr (.inl ⟨proper, token⟩)
  | deeper isChild' below =>
    cases isChild.symm.trans isChild'
    exact .inr (.inr below)

/-- A child that is ignored as a whole is passed over. -/
theorem Ignored.passedOver (h : l.Ignored n [i]) (isChild : n.children[i]? = some c) :
    PassedOver l.options (l.schema.node? n.kind) c.label := by
  rcases h.cases_child isChild with hpassed | hbelow | hdeeper
  · exact hpassed.2
  · exact absurd rfl hbelow.1
  · exact absurd hdeeper not_ignored_nil

/-- What is ignored below a child that is lowered is ignored there too. -/
theorem Ignored.of_kept {field : String} {shape : FieldShape} (h : l.Ignored n (i :: position))
    (isChild : n.children[i]? = some c) (proper : position ≠ [])
    (kept : placement l.options (l.schema.node? n.kind) c.label = .kept field shape) :
    l.Ignored c position := by
  rcases h.cases_child isChild with hpassed | hbelow | hdeeper
  · exact absurd hpassed.1 proper
  · obtain ⟨name, htoken⟩ := placement_of_inTokenField l.options hbelow.2
    rw [htoken] at kept
    cases kept
  · exact hdeeper

/-! ## Two runs -/

variable {c' : SyntaxNode} {rest rest' : List SyntaxNode} {depth : Nat} {schema : Option NodeSchema}

theorem placeChildren_of_passedOver (h : PassedOver l.options schema c.label) :
    l.placeChildren depth schema (c :: rest) = l.placeChildren depth schema rest := by
  rw [placeChildren, placement_of_passedOver h]

/-- Two children with one label are placed in the same way, if they are lowered in the same way
whenever they are lowered. -/
theorem placeChildren_cons_congr (hlabel : c'.label = c.label)
    (hlower : ∀ field shape, placement l.options schema c.label = .kept field shape →
      l.lowerAt depth c' = l.lowerAt depth c)
    (hrest : l.placeChildren depth schema rest' = l.placeChildren depth schema rest) :
    l.placeChildren depth schema (c' :: rest') = l.placeChildren depth schema (c :: rest) := by
  rw [placeChildren, placeChildren, hlabel, hrest]
  cases hplace : placement l.options schema c.label with
  | ignored => rfl
  | token field => rfl
  | kept field shape => simp only [hlower field shape hplace]

/-- Placing what is left of the children of a node is placing them all, if lowering a child does
not see what was cut out below it. `before` are the children that were placed already. -/
theorem placeChildren_pruneList {cut : List Nat → Bool} (depth : Nat)
    (ignored : ∀ position, cut position = true → l.Ignored n position)
    (same : ∀ c ∈ n.children, ∀ cutBelow : List Nat → Bool,
      (∀ position, cutBelow position = true → l.Ignored c position) →
        l.lowerAt depth (c.prune cutBelow) = l.lowerAt depth c) :
    ∀ before rest, n.children = before ++ rest →
      l.placeChildren depth (l.schema.node? n.kind)
          (SyntaxNode.pruneList cut before.length rest) =
        l.placeChildren depth (l.schema.node? n.kind) rest := by
  intro before rest
  induction rest generalizing before with
  | nil =>
    intro _
    rw [SyntaxNode.pruneList]
  | cons c rest ih =>
    intro hchildren
    have isChild : n.children[before.length]? = some c := by
      rw [hchildren, List.getElem?_append_right (Nat.le_refl _), Nat.sub_self]
      rfl
    have hrest : l.placeChildren depth (l.schema.node? n.kind)
          (SyntaxNode.pruneList cut (before.length + 1) rest) =
        l.placeChildren depth (l.schema.node? n.kind) rest := by
      have hsplit : n.children = (before ++ [c]) ++ rest := by
        rw [hchildren, List.append_assoc, List.singleton_append]
      simpa using ih (before ++ [c]) hsplit
    rw [SyntaxNode.pruneList]
    by_cases hcut : cut [before.length] = true
    · rw [if_pos hcut, hrest, placeChildren_of_passedOver ((ignored _ hcut).passedOver isChild)]
    · rw [if_neg hcut]
      refine placeChildren_cons_congr (SyntaxNode.label_prune _ c) ?_ hrest
      intro field shape hkept
      -- the child is lowered, so what was cut out below it is ignored there
      have hbelow : ∀ position, cut (before.length :: position) = true →
          l.Ignored c position := by
        intro position hposition
        refine (ignored _ hposition).of_kept isChild ?_ hkept
        intro hnil
        rw [hnil] at hposition
        exact hcut hposition
      exact same c (List.mem_of_getElem? isChild) _ hbelow

/-- A node is put together from its label and from what was placed in it. -/
theorem assemble_prune (cut : List Nat → Bool) (n : SyntaxNode) (placed : List Placed) :
    l.assemble (n.prune cut) placed = l.assemble n placed := by
  rw [SyntaxNode.prune_eq]
  rfl

/-- By induction on the tree, at every level: its children are placed as before, each of them being
lowered as before. -/
theorem lowerAt_prune (depth : Nat) (n : SyntaxNode) (cut : List Nat → Bool)
    (ignored : ∀ position, cut position = true → l.Ignored n position) :
    l.lowerAt depth (n.prune cut) = l.lowerAt depth n := by
  induction n using SyntaxNode.induct generalizing depth cut with
  | step n ih =>
    have hplace : l.placeChildren (depth + 1) (l.schema.node? n.kind)
          (SyntaxNode.pruneList cut 0 n.children) =
        l.placeChildren (depth + 1) (l.schema.node? n.kind) n.children :=
      placeChildren_pruneList (depth + 1) ignored
        (fun c hc cutBelow hbelow => ih c hc (depth + 1) cutBelow hbelow) [] n.children rfl
    have hassemble : l.assemble (n.prune cut) = l.assemble n := by
      funext placed
      exact assemble_prune cut n placed
    obtain ⟨label, children⟩ := n
    rw [SyntaxNode.kind] at hplace
    rw [SyntaxNode.prune] at hassemble ⊢
    rw [lowerAt, lowerAt, hassemble, hplace]

end Lowering

/-- **What lowering ignores has no influence**: whatever is cut out of a tree among the parts that
are ignored, the outcome is that of the whole tree, the same raw tree or the same error. -/
theorem lower_prune (l : Lowering) (root : SyntaxNode) (cut : List Nat → Bool)
    (ignored : ∀ position, cut position = true → l.Ignored root position) :
    l.lower (root.prune cut) = l.lower root :=
  Lowering.lowerAt_prune 0 root cut ignored

/-- A sum with clutter: a bracket below a name, a name below a token, and an extra node with a
comment below it, all of them with byte ranges beyond the end of the source. -/
def clutteredSum : SyntaxNode :=
  let node (kind : String) (named extra : Bool) (field : Option String) (start stop : Nat)
      (children : List SyntaxNode) : SyntaxNode :=
    ⟨⟨kind, named, extra, false, false, false, field, start, stop, ⟨0, start⟩, ⟨0, stop⟩⟩, children⟩
  node "sum" true false none 0 11
    [node "identifier" true false (some "left") 0 1 [node "(" false false none 40 41 []],
      node "+" false false (some "operator") 2 3 [node "identifier" true false none 50 51 []],
      node "line_continuation" true true none 60 70 [node "comment" true true none 61 62 []]]

theorem lower_prune_clutteredSum :
    (∀ position, [[0, 0], [1, 0], [2]].contains position = true →
      sumLowering.Ignored clutteredSum position) ∧
    sumLowering.lower (clutteredSum.prune [[0, 0], [1, 0], [2]].contains) =
      sumLowering.lower clutteredSum ∧
    sumLowering.lower clutteredSum = .ok ⟨"sum",
      [("left", .node "identifier" [("text", .scalar (.str "a"))]),
        ("operator", .scalar (.str "+")), ("right", .null)]⟩ := by
  have ignored : ∀ position, [[0, 0], [1, 0], [2]].contains position = true →
      sumLowering.Ignored clutteredSum position := by
    intro position h
    rw [List.contains_iff_mem] at h
    simp only [List.mem_cons, List.not_mem_nil, or_false] at h
    rcases h with bracket | name | extra
    · subst bracket
      exact .deeper rfl (.child rfl (.noField rfl rfl rfl))
    · subst name
      exact .belowToken rfl ⟨rfl, "operator", rfl, rfl⟩ (List.cons_ne_nil _ _)
    · subst extra
      exact .child rfl (.extra rfl (by decide))
  exact ⟨ignored, lower_prune sumLowering clutteredSum _ ignored, rfl⟩

end SyntaxGraph
