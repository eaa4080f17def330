import SyntaxGraph.SyntaxNode.Search

/-!
# The search with a stack is a search of a listing

The stack of `findFirstIn` is a forest that is still to be seen. What the walk meets from there on
is the listing of that forest, one tree after the other, so it finds the first match of the listing
(`findFirstIn_eq_find?`). A walk that may enter every node meets the whole tree in document order
(`reachable_eq_preorder`), and one that may enter every node above a match finds what it would find
in the whole tree (`find?_reachable`).
-/

namespace SyntaxGraph.SyntaxNode

variable {isMatch enter : SyntaxNode → Bool}

theorem reachable_eq (enter : SyntaxNode → Bool) (n : SyntaxNode) :
    n.reachable enter = n :: if enter n then reachableList enter n.children else [] := by
  cases n
  rfl

theorem reachableList_append (a b : List SyntaxNode) :
    reachableList enter (a ++ b) = reachableList enter a ++ reachableList enter b := by
  induction a with
  | nil => rfl
  | cons n rest ih =>
    rw [List.cons_append, reachableList, reachableList, ih, List.append_assoc]

theorem findFirstIn_eq_find? (stack : List SyntaxNode) :
    findFirstIn isMatch enter stack = (reachableList enter stack).find? isMatch := by
  fun_induction findFirstIn isMatch enter stack with
  | case1 => rfl
  | case2 n rest hmatch =>
    rw [reachableList, reachable_eq, List.cons_append, List.find?_cons_of_pos hmatch]
  | case3 n rest hmatch henter ih =>
    rw [ih, reachableList_append, reachableList, reachable_eq, if_pos henter, List.cons_append,
      List.find?_cons_of_neg hmatch]
  | case4 n rest hmatch henter ih =>
    rw [ih, reachableList, reachable_eq, if_neg henter, List.cons_append, List.nil_append,
      List.find?_cons_of_neg hmatch]

/-- The search finds the first match among the nodes that it can reach. -/
theorem findFirst_eq_find? (isMatch enter : SyntaxNode → Bool) (root : SyntaxNode) :
    root.findFirst isMatch enter = (root.reachable enter).find? isMatch := by
  rw [findFirst, findFirstIn_eq_find?, reachableList, reachableList, List.append_nil]

mutual

/-- Without nodes that may not be entered, all nodes are reached. -/
theorem reachable_eq_preorder :
    ∀ n : SyntaxNode, n.reachable (fun _ => true) = n.preorder
  | ⟨label, children⟩ => by
    rw [reachable, preorder, if_pos rfl, reachableList_eq_preorderList children]

theorem reachableList_eq_preorderList :
    ∀ ns : List SyntaxNode, reachableList (fun _ => true) ns = preorderList ns
  | [] => rfl
  | n :: rest => by
    rw [reachableList, preorderList, reachable_eq_preorder n, reachableList_eq_preorderList rest]

end

mutual

theorem reachable_sublist (enter : SyntaxNode → Bool) :
    ∀ n : SyntaxNode, (n.reachable enter).Sublist n.preorder
  | ⟨label, children⟩ => by
    rw [reachable, preorder]
    split
    · exact (reachableList_sublist enter children).cons_cons _
    · exact (List.nil_sublist _).cons_cons _

theorem reachableList_sublist (enter : SyntaxNode → Bool) :
    ∀ ns : List SyntaxNode, (reachableList enter ns).Sublist (preorderList ns)
  | [] => List.Sublist.slnil
  | n :: rest => by
    rw [reachableList, preorderList]
    exact (reachable_sublist enter n).append (reachableList_sublist enter rest)

end

/-! ## Nodes of a tree -/

theorem preorder_eq (n : SyntaxNode) : n.preorder = n :: preorderList n.children := by
  cases n
  rfl

theorem mem_preorder_self (n : SyntaxNode) : n ∈ n.preorder := by
  rw [preorder_eq]
  exact List.mem_cons_self

theorem preorderList_eq_flatMap (ns : List SyntaxNode) : preorderList ns = ns.flatMap preorder := by
  induction ns with
  | nil => rfl
  | cons n rest ih => rw [preorderList, ih, List.flatMap_cons]

theorem mem_preorder_of_child {n c m : SyntaxNode} (hc : c ∈ n.children) (hm : m ∈ c.preorder) :
    m ∈ n.preorder := by
  rw [preorder_eq, preorderList_eq_flatMap]
  exact List.mem_cons_of_mem _ (List.mem_flatMap.2 ⟨c, hc, hm⟩)

/-! ## Searches that leave out no match -/

/-- Every node above a match may be entered. -/
def EntersAbove (isMatch enter : SyntaxNode → Bool) (root : SyntaxNode) : Prop :=
  ∀ n ∈ root.preorder, ∀ m ∈ preorderList n.children, isMatch m = true → enter n = true

instance (isMatch enter : SyntaxNode → Bool) (root : SyntaxNode) :
    Decidable (EntersAbove isMatch enter root) :=
  inferInstanceAs (Decidable (∀ n ∈ root.preorder, _))

theorem EntersAbove.child {n c : SyntaxNode} (above : EntersAbove isMatch enter n)
    (hc : c ∈ n.children) : EntersAbove isMatch enter c :=
  fun m hm => above m (mem_preorder_of_child hc hm)

mutual

/-- **A search that may enter every node above a match misses none.** -/
theorem find?_reachable :
    ∀ n : SyntaxNode, EntersAbove isMatch enter n →
      (n.reachable enter).find? isMatch = n.preorder.find? isMatch
  | ⟨label, children⟩, above => by
    rw [reachable, preorder, List.find?_cons, List.find?_cons]
    by_cases henter : enter ⟨label, children⟩ = true
    · rw [if_pos henter, find?_reachableList children fun c hc => above.child hc]
    · -- no match stands below a node that may not be entered
      have hnone : (preorderList children).find? isMatch = none :=
        List.find?_eq_none.2 fun m hm hmatch =>
          henter (above _ (mem_preorder_self _) m hm hmatch)
      rw [if_neg henter, hnone, List.find?_nil]

theorem find?_reachableList :
    ∀ ns : List SyntaxNode, (∀ n ∈ ns, EntersAbove isMatch enter n) →
      (reachableList enter ns).find? isMatch = (preorderList ns).find? isMatch
  | [], _ => rfl
  | n :: rest, above => by
    rw [List.forall_mem_cons] at above
    rw [reachableList, preorderList, List.find?_append, List.find?_append,
      find?_reachable n above.1, find?_reachableList rest above.2]

end

end SyntaxGraph.SyntaxNode
