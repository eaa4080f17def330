import Mathlib.Order.Bounds.Defs
import SyntaxGraph.Proofs.Acceptance
import SyntaxGraph.Proofs.Lines

/-!
# The first fault of a damaged tree

A tree with an error is refused at one of its faulty nodes. The search for it enters only nodes
that say that they have an error. As long as a parser says so of every node above a faulty one, the
search finds the first faulty node of the whole tree; as long as rows do not go back in document
order, that node stands on the smallest line of all faulty nodes (`firstFaulty?_eq_find?`,
`startRow_le_of_find?`).

The message of a fault quotes the text of an error node with at most one child. This is meant for a
node that wraps a single token, but a child may itself be made of several tokens, which are then
quoted together (`parse_loneDecorator`). Nodes with at most one child and nodes with at most one
token are the same only if no child wraps several (`tokens_le_one_iff`).

Main statements: `parse_firstFault` for the place of a fault, `parse_message` for its words.
-/

namespace SyntaxGraph

/-- The first match in a listing sorted by a key has the least key of all matches. -/
theorem le_of_find?_eq_some {α : Type} {p : α → Bool} (key : α → Nat) {l : List α} {a : α}
    (sorted : l.Pairwise fun x y => key x ≤ key y) (h : l.find? p = some a) :
    ∀ b ∈ l, p b = true → key a ≤ key b := by
  obtain ⟨-, before, after, rfl, hbefore⟩ := List.find?_eq_some_iff_append.1 h
  intro b hb hmatch
  rw [List.mem_append, List.mem_cons] at hb
  rcases hb with hb | rfl | hb
  · have hno := hbefore b hb
    rw [hmatch] at hno
    cases hno
  · exact Nat.le_refl _
  · exact List.rel_of_pairwise_cons (List.pairwise_append.1 sorted).2.1 hb

namespace SyntaxNode

/-! ## Where the first fault is -/

/-- How a parser marks errors: every node above a faulty one says that it has an error, and rows do
not go back in document order. -/
structure Marked (root : SyntaxNode) : Prop where
  above : EntersAbove isFaulty (fun n => n.label.hasError) root
  rows : root.preorder.Pairwise fun a b => a.label.startPoint.row ≤ b.label.startPoint.row

variable {root n : SyntaxNode} {source : String}

theorem firstFaulty?_eq_find? (marked : root.Marked) :
    root.firstFaulty? = root.preorder.find? isFaulty := by
  rw [firstFaulty?, findFirst_eq_find?, find?_reachable root marked.above]

theorem startRow_le_of_find? (marked : root.Marked)
    (h : root.preorder.find? isFaulty = some n) :
    ∀ m ∈ root.preorder, m.isFaulty = true →
      n.label.startPoint.row ≤ m.label.startPoint.row :=
  le_of_find?_eq_some (fun m => m.label.startPoint.row) marked.rows h

/-- A tree with an error is refused at the faulty node that is found, or else at its root. -/
theorem parse_of_hasError {tree? : String → Option SyntaxNode} (options : TreeOptions)
    (answer : tree? source = some root) (herror : root.label.hasError = true) :
    (pythonParser tree? options).parse source = .error (root.firstFault source) := by
  simp only [pythonParser, answer, pythonRawTree, herror, if_true]

end SyntaxNode

/-- **The first fault is really the first.** If every node above a faulty one says so, the search
finds the first faulty node of the whole tree, and finds one if there is any; only a tree without
any is refused at its root. The line of the fault is the line of that node, and if rows do not go
back it is the smallest of all lines on which faulty nodes start. A line is a word, so this is said
of rows as well. -/
theorem parse_firstFault (tree? : String → Option SyntaxNode) (options : TreeOptions)
    (source : String) (root : SyntaxNode) (answer : tree? source = some root)
    (herror : root.label.hasError = true) (marked : root.Marked) :
    let outcome := (pythonParser tree? options).parse source
    root.firstFaulty? = root.preorder.find? SyntaxNode.isFaulty ∧
    (root.firstFaulty?.isSome ↔ ∃ m ∈ root.preorder, m.isFaulty = true) ∧
    ((∀ m ∈ root.preorder, m.isFaulty = false) →
      outcome = .error (.fault root.startLine .invalid)) ∧
    ((∃ m ∈ root.preorder, m.isFaulty = true) →
      ∃ n line, root.preorder.find? SyntaxNode.isFaulty = some n ∧
        outcome = .error (.fault line (n.faultAt source)) ∧
        line = lineOfRow n.label.startPoint.row ∧
        (∀ m ∈ root.preorder, m.isFaulty = true →
          n.label.startPoint.row ≤ m.label.startPoint.row) ∧
        (n.label.startPoint.row + 1 < 2 ^ 32 →
          IsLeast {k | ∃ m ∈ root.preorder, m.isFaulty = true ∧ k = m.label.startPoint.row + 1}
            line.toNat)) := by
  intro outcome
  have hfind := SyntaxNode.firstFaulty?_eq_find? marked
  have houtcome : outcome = .error (root.firstFault source) :=
    SyntaxNode.parse_of_hasError options answer herror
  rw [houtcome, SyntaxNode.firstFault, hfind]
  refine ⟨rfl, List.find?_isSome, fun none => ?_, fun some => ?_⟩
  · have hnone : root.preorder.find? SyntaxNode.isFaulty = .none :=
      List.find?_eq_none.2 fun m hm => Bool.not_eq_true _ ▸ none m hm
    rw [hnone]
  · obtain ⟨n, hn⟩ := Option.isSome_iff_exists.1 (List.find?_isSome.2 some)
    have hleast := SyntaxNode.startRow_le_of_find? marked hn
    rw [hn]
    refine ⟨n, n.startLine, rfl, rfl, rfl, hleast, fun word => ?_⟩
    have hline : n.startLine.toNat = n.label.startPoint.row + 1 := toNat_lineOfRow word
    rw [hline]
    refine ⟨⟨n, List.mem_of_find?_eq_some hn, List.find?_some hn, rfl⟩, ?_⟩
    rintro k ⟨m, hm, hfaulty, rfl⟩
    exact Nat.succ_le_succ (hleast m hm hfaulty)

/-- A call that lacks its last bracket, behind a clean line and before a line with an error. -/
def openCall : SyntaxNode :=
  let node (kind : String) (flags : Bool × Bool × Bool) (row start stop : Nat)
      (children : List SyntaxNode) : SyntaxNode :=
    ⟨⟨kind, true, false, flags.1, flags.2.1, flags.2.2, none, start, stop, ⟨row, 0⟩, ⟨row, 0⟩⟩,
      children⟩
  let clean := (false, false, false)
  let below := (false, false, true)
  node "module" below 0 0 8
    [node "identifier" clean 0 0 1 [],
      node "call" below 1 2 5 [node "identifier" clean 1 2 3 [],
        node "argument_list" below 1 3 5 [node "integer" clean 1 4 5 [],
          node ")" (false, true, true) 1 5 5 []]],
      node "ERROR" (true, false, true) 2 6 7 []]

theorem parse_firstFault_openCall :
    openCall.label.hasError = true ∧ openCall.Marked ∧
    (pythonParser (fun _ => some openCall) {}).parse "x\nf(1\n$\n" =
      .error (.fault 2 (.expected ")")) := by
  have marked : openCall.Marked := ⟨by decide, by decide⟩
  obtain ⟨-, -, -, hfault⟩ :=
    parse_firstFault (fun _ => some openCall) {} "x\nf(1\n$\n" openCall rfl rfl marked
  obtain ⟨n, line, hn, houtcome, rfl, -⟩ := hfault (by decide)
  cases hn
  exact ⟨rfl, marked, houtcome⟩

/-! ## What a fault quotes -/

namespace SyntaxNode

/-- The node is a token: it has no children. -/
def isLeaf (n : SyntaxNode) : Bool := n.children.isEmpty

/-- The tokens that a node wraps: the leaves below it. -/
def tokens (n : SyntaxNode) : List SyntaxNode := (preorderList n.children).filter isLeaf

theorem tokens_eq_flatMap (n : SyntaxNode) :
    n.tokens = n.children.flatMap fun c => c.preorder.filter isLeaf := by
  rw [tokens, preorderList_eq_flatMap, List.filter_flatMap]

/-- The leaves of a subtree are its root alone, or the tokens that the root wraps. -/
theorem filter_isLeaf_preorder (n : SyntaxNode) :
    n.preorder.filter isLeaf = if n.isLeaf then [n] else n.tokens := by
  rw [preorder_eq, List.filter_cons]
  cases hleaf : n.isLeaf with
  | true =>
    have hnone : n.children = [] := List.isEmpty_iff.1 hleaf
    simp [hnone, preorderList]
  | false => simp [tokens]

theorem exists_leaf (n : SyntaxNode) : n.preorder.filter isLeaf ≠ [] := by
  induction n using SyntaxNode.induct with
  | step n ih =>
    rw [filter_isLeaf_preorder]
    split
    · exact List.cons_ne_nil _ _
    · rename_i hleaf
      obtain ⟨c, hc⟩ := List.exists_mem_of_ne_nil n.children (by simpa [isLeaf] using hleaf)
      obtain ⟨m, hm⟩ := List.exists_mem_of_ne_nil _ (ih c hc)
      rw [tokens_eq_flatMap]
      exact List.ne_nil_of_mem (List.mem_flatMap.2 ⟨c, hc, hm⟩)

/-- Every child has a token, so there are at least as many tokens as children. -/
theorem length_children_le_tokens (n : SyntaxNode) : n.children.length ≤ n.tokens.length := by
  rw [tokens_eq_flatMap]
  induction n.children with
  | nil => exact Nat.le_refl 0
  | cons c rest ih =>
    have hc := List.length_pos_of_ne_nil c.exists_leaf
    rw [List.flatMap_cons, List.length_append, List.length_cons]
    omega

/-- A node wraps several tokens exactly if it has several children, or one that does. -/
theorem one_lt_tokens_iff (n : SyntaxNode) :
    1 < n.tokens.length ↔
      1 < n.children.length ∨ ∃ c, n.children = [c] ∧ 1 < c.tokens.length := by
  have hle := n.length_children_le_tokens
  have htokens := n.tokens_eq_flatMap
  match hchildren : n.children with
  | [] => simp [tokens, hchildren, preorderList]
  | [c] =>
    have hc : n.tokens = if c.isLeaf then [c] else c.tokens := by
      rw [htokens, hchildren, List.flatMap_singleton, filter_isLeaf_preorder]
    rw [hc]
    cases hleaf : c.isLeaf with
    | true =>
      have hnone : c.children = [] := List.isEmpty_iff.1 hleaf
      simp [tokens, hnone, preorderList]
    | false => simp
  | c :: d :: rest =>
    rw [hchildren, List.length_cons, List.length_cons] at hle
    refine iff_of_true (by omega) (Or.inl ?_)
    simp

end SyntaxNode

/-- The message of a fault names a text as unexpected. -/
def SyntaxFault.Quotes (what : SyntaxFault) (text : String) : Prop :=
  what.message = "unexpected '" ++ text ++ "'"

theorem SyntaxFault.quotes_unexpected {token text : String} :
    (SyntaxFault.unexpected token).Quotes text ↔ text = token := by
  show "unexpected '" ++ token ++ "'" = _ ↔ _
  rw [String.append_left_inj, String.append_right_inj]
  exact eq_comm

theorem SyntaxFault.not_quotes_invalid {text : String} : ¬ SyntaxFault.invalid.Quotes text := by
  intro h
  replace h : "invalid syntax" = "unexpected '" ++ text ++ "'" := h
  have hfirst := congrArg (fun s : String => s.toList.head?) h
  simp at hfirst

namespace SyntaxNode

variable {n : SyntaxNode} {source text : String}

/-- An error node is quoted with its text, if it has at most one child and a text that is not
blank. -/
theorem faultAt_of_present (source : String) (present : n.label.isMissing = false) :
    n.faultAt source = .invalid ∧
        ¬ (∃ text, n.children.length ≤ 1 ∧ n.trimmedText? source = some text ∧ text ≠ "") ∨
      ∃ text, n.faultAt source = .unexpected text ∧ n.children.length ≤ 1 ∧
        n.trimmedText? source = some text ∧ text ≠ "" := by
  rw [faultAt, present, if_neg Bool.false_ne_true]
  by_cases hfew : n.children.length ≤ 1
  · rw [if_pos hfew]
    cases htext : n.trimmedText? source with
    | none => exact Or.inl ⟨rfl, by simp⟩
    | some text =>
      by_cases hblank : text = ""
      · exact Or.inl ⟨by simp [hblank], by simp [hblank]⟩
      · exact Or.inr ⟨text, by simp [hblank], hfew, rfl, hblank⟩
  · exact Or.inl ⟨if_neg hfew, by simp [hfew]⟩

theorem quotes_faultAt_iff (present : n.label.isMissing = false) :
    (n.faultAt source).Quotes text ↔
      n.children.length ≤ 1 ∧ n.trimmedText? source = some text ∧ text ≠ "" := by
  rcases faultAt_of_present source present with ⟨hfault, hnone⟩ | ⟨token, hfault, hsome⟩
  · rw [hfault]
    exact iff_of_false SyntaxFault.not_quotes_invalid fun h => hnone ⟨text, h⟩
  · rw [hfault, SyntaxFault.quotes_unexpected]
    constructor
    · rintro rfl
      exact hsome
    · rintro ⟨-, htext, -⟩
      rw [hsome.2.1] at htext
      exact (Option.some.inj htext).symm

theorem message_faultAt (present : n.label.isMissing = false)
    (h : ¬ ∃ text, (n.faultAt source).Quotes text) :
    (n.faultAt source).message = "invalid syntax" := by
  rcases faultAt_of_present source present with ⟨hfault, -⟩ | ⟨token, hfault, -⟩
  · rw [hfault]
    rfl
  · exact absurd ⟨token, by rw [hfault, SyntaxFault.quotes_unexpected]⟩ h

/-- If no child wraps several tokens, a node with at most one child wraps at most one token. -/
theorem tokens_le_one_iff (simple : ∀ c ∈ n.children, c.tokens.length ≤ 1) :
    n.tokens.length ≤ 1 ↔ n.children.length ≤ 1 := by
  rw [← Nat.not_lt, ← Nat.not_lt, one_lt_tokens_iff]
  refine not_congr (or_iff_left ?_)
  rintro ⟨c, hc, hmany⟩
  exact absurd (simple c (hc ▸ List.mem_cons_self)) (Nat.not_le_of_lt hmany)

end SyntaxNode

/-- **What the message of an error node quotes.** If the first faulty node is not one put in, the
message quotes its text exactly if it has at most one child and its text is not blank, and is
`invalid syntax` otherwise. So a node that is quoted wraps several tokens exactly if they all stand
below its only child. As long as no child wraps several tokens, a text is quoted exactly if it is
the text of at most one token. -/
theorem parse_message (tree? : String → Option SyntaxNode) (options : TreeOptions)
    (source : String) (root n : SyntaxNode) (answer : tree? source = some root)
    (herror : root.label.hasError = true) (first : root.firstFaulty? = some n)
    (present : n.label.isMissing = false) :
    ∃ what, (pythonParser tree? options).parse source = .error (.fault n.startLine what) ∧
      (∀ text, what.Quotes text ↔
        n.children.length ≤ 1 ∧ n.trimmedText? source = some text ∧ text ≠ "") ∧
      ((¬ ∃ text, what.Quotes text) → what.message = "invalid syntax") ∧
      ((∃ text, what.Quotes text) →
        (1 < n.tokens.length ↔ ∃ c, n.children = [c] ∧ 1 < c.tokens.length)) ∧
      ((∀ c ∈ n.children, c.tokens.length ≤ 1) → ∀ text, what.Quotes text ↔
        n.tokens.length ≤ 1 ∧ n.trimmedText? source = some text ∧ text ≠ "") := by
  have hquotes : ∀ text, (n.faultAt source).Quotes text ↔
      n.children.length ≤ 1 ∧ n.trimmedText? source = some text ∧ text ≠ "" :=
    fun text => SyntaxNode.quotes_faultAt_iff present
  refine ⟨n.faultAt source, ?_, hquotes, SyntaxNode.message_faultAt present, ?_, ?_⟩
  · rw [SyntaxNode.parse_of_hasError options answer herror, SyntaxNode.firstFault, first]
  · rintro ⟨text, h⟩
    rw [SyntaxNode.one_lt_tokens_iff]
    exact or_iff_right (Nat.not_lt_of_le ((hquotes text).1 h).1)
  · intro simple text
    rw [hquotes, SyntaxNode.tokens_le_one_iff simple]

/-- A name that is cut off by a stray return. -/
def cutName : SyntaxNode :=
  let node (kind : String) (flags : Bool × Bool) (start stop : Nat)
      (children : List SyntaxNode) : SyntaxNode :=
    ⟨⟨kind, true, false, flags.1, false, flags.2, none, start, stop, ⟨0, start⟩, ⟨0, stop⟩⟩,
      children⟩
  node "module" (false, true) 0 3
    [node "ERROR" (true, true) 0 1 [node "identifier" (false, false) 0 1 []],
      node "expression_statement" (false, false) 2 3 [node "identifier" (false, false) 2 3 []]]

theorem parse_message_cutName :
    ∃ n what, cutName.label.hasError = true ∧ cutName.firstFaulty? = some n ∧
      n.label.isMissing = false ∧
      (pythonParser (fun _ => some cutName) {}).parse "x\ry" = .error (.fault 1 what) ∧
      n.tokens.length = 1 ∧ what.Quotes "x" := by
  have first : cutName.firstFaulty? = cutName.children.head? := by
    rw [SyntaxNode.firstFaulty?, SyntaxNode.findFirst_eq_find?]
    rfl
  obtain ⟨what, houtcome, hquotes, -⟩ :=
    parse_message (fun _ => some cutName) {} "x\ry" cutName _ rfl rfl first rfl
  exact ⟨_, what, rfl, first, rfl, houtcome, by decide, (hquotes "x").2 (by decide)⟩

/-- A decorator without a function to decorate. -/
def loneDecorator : SyntaxNode :=
  let node (kind : String) (flags : Bool × Bool × Bool) (start stop : Nat)
      (children : List SyntaxNode) : SyntaxNode :=
    ⟨⟨kind, flags.1, false, flags.2.1, false, flags.2.2, none, start, stop, ⟨0, start⟩, ⟨0, stop⟩⟩,
      children⟩
  let clean := (true, false, false)
  node "module" (true, false, true) 0 3
    [node "ERROR" (true, true, true) 0 2
      [node "decorator" clean 0 2
        [node "@" (false, false, false) 0 1 [], node "identifier" clean 1 2 []]]]

/-- An error node may wrap several tokens and be quoted all the same: its only child is a decorator,
an at sign and a name. -/
theorem parse_loneDecorator :
    ∃ n, loneDecorator.label.hasError = true ∧ loneDecorator.firstFaulty? = some n ∧
      n.label.isError = true ∧ n.tokens.map SyntaxNode.kind = ["@", "identifier"] ∧
      (pythonParser (fun _ => some loneDecorator) {}).parse "@a\n" =
        .error (.fault 1 (.unexpected "@a")) ∧
      (SyntaxFault.unexpected "@a").message ≠ "invalid syntax" := by
  have first : loneDecorator.firstFaulty? = loneDecorator.children.head? := by
    rw [SyntaxNode.firstFaulty?, SyntaxNode.findFirst_eq_find?]
    rfl
  refine ⟨_, rfl, first, rfl, by decide, ?_, by decide⟩
  rw [SyntaxNode.parse_of_hasError {} rfl rfl, SyntaxNode.firstFault, first]
  rfl

end SyntaxGraph
