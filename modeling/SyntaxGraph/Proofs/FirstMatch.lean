import Mathlib.Data.List.Chain
import Mathlib.Logic.Relation
import SyntaxGraph.Proofs.Search

/-!
# The search finds the first match in document order

`findFirst` keeps a stack of subtrees. Here its loop is taken apart into rounds (`Round`): a round
takes the top of the stack and puts the children of a node that may be entered in its place, the
last child first. What it finds is said without the stack, over the places of the tree
(`occurrences`): a place is a node together with its proper ancestors, and the places are listed in
document order.

**Theorem (`findFirst_first`).** The loop comes to an end on every tree, and its answer is the node
of the first place, in document order, where a match stands below nodes that may all be entered.
It answers with nothing exactly when there is no such place.

The invariant of the loop is that the stack, read as a forest, still has the same first match
(`Round.findFirstIn_eq`); and each round takes at least one node off the stack for good
(`Round.nodeCountList_lt`), which is why there are only finitely many. The listing that the stack
stands for leaves out what lies below a node that may not be entered, so it is the listing of the
places all of whose ancestors may be entered (`map_node_filter_occurrences`).
-/

namespace SyntaxGraph.SyntaxNode

open Relation

variable {isMatch enter : SyntaxNode → Bool}

/-! ## Places of a tree -/

/-- A place in a tree: a node and its proper ancestors, the root first. -/
structure Occurrence where
  above : List SyntaxNode
  node : SyntaxNode

mutual

/-- The places of a subtree in document order. -/
def occurrences (above : List SyntaxNode) : SyntaxNode → List Occurrence
  | ⟨label, children⟩ =>
    ⟨above, ⟨label, children⟩⟩ :: occurrencesList (above ++ [⟨label, children⟩]) children

/-- The places of several subtrees below the same ancestors. -/
def occurrencesList (above : List SyntaxNode) : List SyntaxNode → List Occurrence
  | [] => []
  | n :: rest => n.occurrences above ++ occurrencesList above rest

end

mutual

theorem map_node_occurrences (above : List SyntaxNode) :
    ∀ n : SyntaxNode, (n.occurrences above).map (·.node) = n.preorder
  | ⟨label, children⟩ => by
    rw [occurrences, preorder, List.map_cons, map_node_occurrencesList _ children]

theorem map_node_occurrencesList (above : List SyntaxNode) :
    ∀ ns : List SyntaxNode, (occurrencesList above ns).map (·.node) = preorderList ns
  | [] => rfl
  | n :: rest => by
    rw [occurrencesList, preorderList, List.map_append, map_node_occurrences above n,
      map_node_occurrencesList above rest]

end

/-- Each node of the list is a child of the one before it. -/
def IsDescent (path : List SyntaxNode) : Prop :=
  path.IsChain fun parent child => child ∈ parent.children

/-- The place lies in the subtree of `n` below the ancestors `above`: its own ancestors are `above`
and then a way down from `n`. -/
def Occurrence.LiesIn (o : Occurrence) (above : List SyntaxNode) (n : SyntaxNode) : Prop :=
  ∃ way, o.above ++ [o.node] = above ++ n :: way ∧ IsDescent (n :: way)

theorem Occurrence.liesIn_iff {o : Occurrence} {above : List SyntaxNode} {n : SyntaxNode} :
    o.LiesIn above n ↔
      o = ⟨above, n⟩ ∨ ∃ c ∈ n.children, o.LiesIn (above ++ [n]) c := by
  constructor
  · intro h
    obtain ⟨way, hpath, hdescent⟩ := h
    cases way with
    | nil =>
      obtain ⟨habove, hnode⟩ := List.append_inj' hpath rfl
      rw [List.singleton_inj] at hnode
      exact .inl (by rw [← habove, ← hnode])
    | cons c way =>
      rw [IsDescent, List.isChain_cons_cons] at hdescent
      refine .inr ⟨c, hdescent.1, way, ?_, hdescent.2⟩
      rw [hpath, List.append_assoc, List.singleton_append]
  · intro h
    rcases h with heq | hchild
    · subst heq
      exact ⟨[], rfl, List.isChain_singleton _⟩
    · obtain ⟨c, hc, way, hpath, hdescent⟩ := hchild
      refine ⟨c :: way, ?_, List.isChain_cons_cons.2 ⟨hc, hdescent⟩⟩
      rw [hpath, List.append_assoc, List.singleton_append]

mutual

/-- The listing has exactly the places that a way down from the root leads to. -/
theorem mem_occurrences_iff {o : Occurrence} (above : List SyntaxNode) :
    ∀ n : SyntaxNode, o ∈ n.occurrences above ↔ o.LiesIn above n
  | ⟨label, children⟩ => by
    rw [occurrences, List.mem_cons, mem_occurrencesList_iff _ children]
    exact Occurrence.liesIn_iff.symm

theorem mem_occurrencesList_iff {o : Occurrence} (above : List SyntaxNode) :
    ∀ ns : List SyntaxNode, o ∈ occurrencesList above ns ↔ ∃ n ∈ ns, o.LiesIn above n
  | [] => by simp [occurrencesList]
  | n :: rest => by
    rw [occurrencesList, List.mem_append, mem_occurrences_iff above n,
      mem_occurrencesList_iff above rest]
    simp only [List.mem_cons, exists_eq_or_imp]

end

/-! ## The places that the search may reach -/

/-- The node matches, and all its proper ancestors may be entered. -/
def Occurrence.Qualifies (isMatch enter : SyntaxNode → Bool) (o : Occurrence) : Prop :=
  isMatch o.node = true ∧ ∀ a ∈ o.above, enter a = true

instance (isMatch enter : SyntaxNode → Bool) (o : Occurrence) :
    Decidable (o.Qualifies isMatch enter) :=
  inferInstanceAs (Decidable (_ ∧ _))

mutual

/-- What can be reached are the nodes at the places all of whose ancestors may be entered. -/
theorem map_node_filter_occurrences (enter : SyntaxNode → Bool) (above : List SyntaxNode) :
    ∀ n : SyntaxNode, ((n.occurrences above).filter (·.above.all enter)).map (·.node) =
      if above.all enter then n.reachable enter else []
  | ⟨label, children⟩ => by
    rw [occurrences, List.filter_cons, reachable]
    have hbelow := map_node_filter_occurrencesList enter (above ++ [⟨label, children⟩]) children
    rw [List.all_append, List.all_cons, List.all_nil, Bool.and_true] at hbelow
    by_cases habove : above.all enter = true
    · rw [habove, Bool.true_and] at hbelow
      simp only [habove, if_true, List.map_cons, hbelow]
    · rw [Bool.not_eq_true] at habove
      rw [habove, Bool.false_and] at hbelow
      simp only [habove, Bool.false_eq_true, if_false] at hbelow ⊢
      exact hbelow

theorem map_node_filter_occurrencesList (enter : SyntaxNode → Bool) (above : List SyntaxNode) :
    ∀ ns : List SyntaxNode, ((occurrencesList above ns).filter (·.above.all enter)).map (·.node) =
      if above.all enter then reachableList enter ns else []
  | [] => by simp [occurrencesList, reachableList]
  | n :: rest => by
    rw [occurrencesList, reachableList, List.filter_append, List.map_append,
      map_node_filter_occurrences enter above n, map_node_filter_occurrencesList enter above rest]
    by_cases habove : above.all enter = true
    · simp only [habove, if_true]
    · simp only [habove, Bool.false_eq_true, if_false, List.append_nil]

end

theorem findFirst_eq_find?_occurrences (isMatch enter : SyntaxNode → Bool) (root : SyntaxNode) :
    root.findFirst isMatch enter =
      ((root.occurrences []).find? fun o => o.Qualifies isMatch enter).map (·.node) := by
  have hreach := map_node_filter_occurrences enter [] root
  rw [List.all_nil, if_pos rfl] at hreach
  rw [findFirst_eq_find?, ← hreach, List.find?_map, List.find?_filter]
  congr 2
  funext o
  rw [Bool.eq_iff_iff, decide_eq_true_iff, decide_eq_true_iff, List.all_eq_true]
  exact and_comm

/-! ## Rounds of the loop -/

/-- A round of the search that goes on: the stack before it and after it. -/
inductive Round (isMatch enter : SyntaxNode → Bool) : List SyntaxNode → List SyntaxNode → Prop
  /-- the children of a node that may be entered are pushed, the last one first -/
  | enter (n : SyntaxNode) (rest : List SyntaxNode) (noMatch : isMatch n = false)
      (may : enter n = true) :
      Round isMatch enter (n :: rest)
        (n.children.reverse.foldl (fun stack child => child :: stack) rest)
  /-- the subtree of a node that may not be entered is passed over -/
  | skip (n : SyntaxNode) (rest : List SyntaxNode) (noMatch : isMatch n = false)
      (mayNot : enter n = false) : Round isMatch enter (n :: rest) rest

/-- The search ends at this stack with this answer. -/
inductive Ends (isMatch : SyntaxNode → Bool) : List SyntaxNode → Option SyntaxNode → Prop
  | found (n : SyntaxNode) (rest : List SyntaxNode) (isFound : isMatch n = true) :
      Ends isMatch (n :: rest) (some n)
  | exhausted : Ends isMatch [] none

theorem foldl_push (children rest : List SyntaxNode) :
    children.reverse.foldl (fun stack child => child :: stack) rest = children ++ rest := by
  rw [List.foldl_reverse, List.foldr_cons_eq_append, List.map_id']

variable {stack next : List SyntaxNode} {answer : Option SyntaxNode}

/-- A round leaves the answer of the search as it is. -/
theorem Round.findFirstIn_eq (h : Round isMatch enter stack next) :
    findFirstIn isMatch enter stack = findFirstIn isMatch enter next := by
  cases h with
  | enter n rest noMatch may =>
    rw [findFirstIn, foldl_push, if_neg (Bool.not_eq_true _ ▸ noMatch), if_pos may]
  | skip n rest noMatch mayNot =>
    rw [findFirstIn, if_neg (Bool.not_eq_true _ ▸ noMatch), if_neg (Bool.not_eq_true _ ▸ mayNot)]

theorem Round.nodeCountList_lt (h : Round isMatch enter stack next) :
    nodeCountList next < nodeCountList stack := by
  cases h with
  | enter n rest noMatch may =>
    rw [foldl_push, nodeCountList_append, nodeCountList, nodeCount_eq]
    omega
  | skip n rest noMatch mayNot =>
    rw [nodeCountList, nodeCount_eq]
    omega

theorem wellFounded_round (isMatch enter : SyntaxNode → Bool) :
    WellFounded fun next stack => Round isMatch enter stack next :=
  Subrelation.wf Round.nodeCountList_lt (measure nodeCountList).wf

/-- A round or the end comes next, and the end has the answer of the search. -/
theorem exists_round_or_ends (isMatch enter : SyntaxNode → Bool) (stack : List SyntaxNode) :
    (∃ next, Round isMatch enter stack next) ∨
      Ends isMatch stack (findFirstIn isMatch enter stack) := by
  cases stack with
  | nil =>
    rw [findFirstIn]
    exact .inr .exhausted
  | cons n rest =>
    by_cases hmatch : isMatch n = true
    · rw [findFirstIn, if_pos hmatch]
      exact .inr (.found n rest hmatch)
    · rw [Bool.not_eq_true] at hmatch
      by_cases henter : enter n = true
      · exact .inl ⟨_, .enter n rest hmatch henter⟩
      · exact .inl ⟨_, .skip n rest hmatch (Bool.not_eq_true _ ▸ henter)⟩

/-- Rounds one after the other leave the answer of the search as it is. -/
theorem findFirstIn_eq_of_rounds (run : ReflTransGen (Round isMatch enter) stack next) :
    findFirstIn isMatch enter stack = findFirstIn isMatch enter next := by
  induction run with
  | refl => rfl
  | tail _ round ih => rw [ih, round.findFirstIn_eq]

/-! ## The answer -/

theorem findFirst_eq_some_iff {root n : SyntaxNode} :
    root.findFirst isMatch enter = some n ↔
      ∃ before o after, root.occurrences [] = before ++ o :: after ∧ o.node = n ∧
        o.Qualifies isMatch enter ∧ ∀ earlier ∈ before, ¬ earlier.Qualifies isMatch enter := by
  rw [findFirst_eq_find?_occurrences, Option.map_eq_some_iff]
  constructor
  · intro h
    obtain ⟨o, hfind, hnode⟩ := h
    obtain ⟨hqualifies, before, after, hlisting, hbefore⟩ := List.find?_eq_some_iff_append.1 hfind
    exact ⟨before, o, after, hlisting, hnode, by simpa using hqualifies, by simpa using hbefore⟩
  · intro h
    obtain ⟨before, o, after, hlisting, hnode, hqualifies, hbefore⟩ := h
    refine ⟨o, List.find?_eq_some_iff_append.2 ⟨?_, before, after, hlisting, ?_⟩, hnode⟩
    · simpa using hqualifies
    · simpa using hbefore

theorem findFirst_eq_none_iff {root : SyntaxNode} :
    root.findFirst isMatch enter = none ↔
      ∀ o ∈ root.occurrences [], ¬ o.Qualifies isMatch enter := by
  rw [findFirst_eq_find?_occurrences, Option.map_eq_none_iff, List.find?_eq_none]
  simp

/-- **The search finds the first match in document order.** On every tree its loop comes to an end,
since no stack has an endless run of rounds, and each stack on the way goes on or ends with the one
answer. The places of the tree, in document order, are the ways down from the root; the answer is
the node of the first of them that matches below ancestors that may all be entered, and there is
none exactly when no place is like that. -/
theorem findFirst_first (isMatch enter : SyntaxNode → Bool) (root : SyntaxNode) :
    (WellFounded fun next stack => Round isMatch enter stack next) ∧
    (∀ stack, ReflTransGen (Round isMatch enter) [root] stack →
      (∃ next, Round isMatch enter stack next) ∨
        Ends isMatch stack (root.findFirst isMatch enter)) ∧
    (root.occurrences []).map (·.node) = root.preorder ∧
    (∀ o, o ∈ root.occurrences [] ↔ o.LiesIn [] root) ∧
    (∀ n, root.findFirst isMatch enter = some n ↔
      ∃ before o after, root.occurrences [] = before ++ o :: after ∧ o.node = n ∧
        o.Qualifies isMatch enter ∧ ∀ earlier ∈ before, ¬ earlier.Qualifies isMatch enter) ∧
    (root.findFirst isMatch enter = none ↔
      ∀ o ∈ root.occurrences [], ¬ o.Qualifies isMatch enter) := by
  refine ⟨wellFounded_round isMatch enter, ?run, map_node_occurrences [] root,
    fun o => mem_occurrences_iff [] root, fun n => findFirst_eq_some_iff, findFirst_eq_none_iff⟩
  case run =>
    intro stack run
    rw [findFirst, findFirstIn_eq_of_rounds run]
    exact exists_round_or_ends isMatch enter stack

/-- Two nodes of one kind, the first of them below a string. -/
def quotedName : SyntaxNode :=
  let node (kind : String) (start stop : Nat) (children : List SyntaxNode) : SyntaxNode :=
    ⟨⟨kind, true, false, false, false, false, none, start, stop, ⟨0, start⟩, ⟨0, stop⟩⟩, children⟩
  node "module" 0 9
    [node "string" 0 4 [node "identifier" 1 3 []],
      node "call" 5 9 [node "identifier" 5 7 []]]

/-- A search that does not enter strings passes over the first of them. -/
theorem findFirst_first_quotedName :
    (quotedName.findFirst (·.kind == "identifier") (·.kind != "string")).map (·.label.startByte) =
      some 5 := by
  obtain ⟨-, -, -, -, hfound, -⟩ :=
    findFirst_first (·.kind == "identifier") (·.kind != "string") quotedName
  rw [(hfound _).2 ⟨[⟨[], _⟩, ⟨[quotedName], _⟩, ⟨[quotedName, _], _⟩, ⟨[quotedName], _⟩],
    ⟨[quotedName, _], _⟩, [], rfl, rfl, by decide, by decide⟩]
  rfl

end SyntaxGraph.SyntaxNode
