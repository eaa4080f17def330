import SyntaxGraph.Proofs.Checks
import SyntaxGraph.Proofs.Placement
import SyntaxGraph.Proofs.Search

/-!
# Which sources have a tree

A tree with an error is refused, then a tree with an old statement anywhere, and then a tree of
which lowering would keep a node below level `maxDepth`. The three walks differ in the nodes that
they meet: `keptLevels` lists those that lowering enters, in document order, with their levels.

As long as every byte range is a slice of the source, the levels are all that lowering can fail at
(`lower_eq_error_iff`), and the first node that is too deep is the first one at level
`maxDepth + 1`, since its parent was entered before it (`find?_keptLevels`).

Main statement: `pythonParser_accepts`.
-/

namespace SyntaxGraph

/-! ## Kept nodes by level -/

/-- A child of a kept node is kept: a comment, when comments are wanted, and any named child that
is not in a field of tokens. -/
def keepsChild (options : TreeOptions) (schema : Option NodeSchema) (child : NodeLabel) : Bool :=
  if child.isExtra then options.includeComments && child.kind = "comment"
  else child.isNamed && !(child.field.any fun field => shapeIn? schema field = some .scalar)

theorem keepsChild_eq_true_iff (options : TreeOptions) (schema : Option NodeSchema)
    (child : NodeLabel) :
    keepsChild options schema child = true ↔
      ∃ field shape, placement options schema child = .kept field shape := by
  rw [keepsChild]
  cases hextra : child.isExtra with
  | true =>
    rw [if_pos rfl, placement_of_extra hextra]
    by_cases hcomment : options.includeComments && child.kind = "comment"
    · rw [if_pos hcomment]
      exact iff_of_true hcomment ⟨_, _, rfl⟩
    · rw [if_neg hcomment]
      exact iff_of_false hcomment nofun
  | false =>
    rw [if_neg Bool.false_ne_true]
    cases hfield : child.field with
    | none =>
      rw [placement_of_no_field hextra hfield]
      cases child.isNamed <;> simp
    | some field =>
      -- a named child takes an unknown field for one of nodes
      have hshape : child.isNamed = true →
          (fieldShape schema field child = .scalar ↔ shapeIn? schema field = some .scalar) := by
        intro hnamed
        show (shapeIn? schema field).getD _ = _ ↔ _
        rw [if_pos hnamed]
        cases shapeIn? schema field <;> simp
      rw [placement_of_field hextra hfield]
      cases hnamed : child.isNamed with
      | true =>
        have hshape := hshape hnamed
        by_cases hscalar : fieldShape schema field child = .scalar
        · simp [hscalar, hshape.1 hscalar]
        · simp [hscalar, mt hshape.2 hscalar]
      | false =>
        by_cases hscalar : fieldShape schema field child = .scalar <;> simp [hscalar]

namespace Lowering

mutual

/-- The kept nodes of a subtree whose root is kept, in document order, with their levels. -/
def keptLevels (l : Lowering) (depth : Nat) : SyntaxNode → List (Nat × SyntaxNode)
  | ⟨label, children⟩ =>
    (depth, ⟨label, children⟩) ::
      l.keptLevelsBelow (depth + 1) (l.schema.node? label.kind) children

/-- The kept nodes among children and below them, by the schema of their parent. -/
def keptLevelsBelow (l : Lowering) (depth : Nat) (schema : Option NodeSchema) :
    List SyntaxNode → List (Nat × SyntaxNode)
  | [] => []
  | child :: rest =>
    if keepsChild l.options schema child.label then
      l.keptLevels depth child ++ l.keptLevelsBelow depth schema rest
    else l.keptLevelsBelow depth schema rest

end

mutual

theorem keptLevels_sublist (l : Lowering) (depth : Nat) :
    ∀ n : SyntaxNode, ((l.keptLevels depth n).map (·.2)).Sublist n.preorder
  | ⟨label, children⟩ => by
    rw [keptLevels, SyntaxNode.preorder, List.map_cons]
    exact (keptLevelsBelow_sublist l (depth + 1) _ children).cons_cons _

theorem keptLevelsBelow_sublist (l : Lowering) (depth : Nat) (schema : Option NodeSchema) :
    ∀ children : List SyntaxNode,
      ((l.keptLevelsBelow depth schema children).map (·.2)).Sublist
        (SyntaxNode.preorderList children)
  | [] => List.Sublist.slnil
  | child :: rest => by
    have hrest := keptLevelsBelow_sublist l depth schema rest
    rw [keptLevelsBelow, SyntaxNode.preorderList]
    split
    · rw [List.map_append]
      exact (keptLevels_sublist l depth child).append hrest
    · exact hrest.trans (List.sublist_append_right _ _)

end

end Lowering

/-- The node that a check enters, with its level. -/
def Check.entered? : Check → Option (Nat × SyntaxNode)
  | .level depth n => some (depth, n)
  | .slice _ => none

namespace Lowering

variable {l : Lowering}

mutual

theorem filterMap_entered_checks (depth : Nat) :
    ∀ n : SyntaxNode, (l.checks depth n).filterMap Check.entered? = l.keptLevels depth n
  | ⟨label, children⟩ => by
    have hbelow := filterMap_entered_checksBelow (depth + 1) (l.schema.node? label.kind) children
    have htext : (if l.wantsText ⟨label, children⟩ then [Check.slice ⟨label, children⟩]
        else []).filterMap Check.entered? = [] := by
      split <;> rfl
    rw [checks, keptLevels, ← hbelow, List.filterMap_cons_some (f := Check.entered?) rfl,
      List.filterMap_append, htext, List.append_nil]

theorem filterMap_entered_checksBelow (depth : Nat) (schema : Option NodeSchema) :
    ∀ children : List SyntaxNode,
      (l.checksBelow depth schema children).filterMap Check.entered? =
        l.keptLevelsBelow depth schema children
  | [] => rfl
  | child :: rest => by
    have hrest := filterMap_entered_checksBelow depth schema rest
    have hkeeps := keepsChild_eq_true_iff l.options schema child.label
    rw [checksBelow, keptLevelsBelow]
    cases hp : placement l.options schema child.label with
    | ignored =>
      rw [if_neg (by simp [hkeeps, hp])]
      exact hrest
    | token field =>
      rw [if_neg (by simp [hkeeps, hp])]
      exact hrest
    | kept field shape =>
      rw [if_pos (by simp [hkeeps, hp]), List.filterMap_append, hrest,
        filterMap_entered_checks depth child]

end

mutual

/-- The byte ranges that the walk asks for are those of nodes of the tree. -/
theorem mem_preorder_of_slice (depth : Nat) {m : SyntaxNode} :
    ∀ n : SyntaxNode, .slice m ∈ l.checks depth n → m ∈ n.preorder
  | ⟨label, children⟩ => by
    intro h
    rw [checks, List.mem_cons, List.mem_append] at h
    rw [SyntaxNode.preorder, List.mem_cons]
    rcases h with h | h | h
    · cases h
    · exact Or.inr (mem_preorder_of_sliceBelow (depth + 1) _ children h)
    · split at h
      · rw [List.mem_singleton, Check.slice.injEq] at h
        exact Or.inl h
      · exact absurd h List.not_mem_nil

theorem mem_preorder_of_sliceBelow (depth : Nat) (schema : Option NodeSchema) {m : SyntaxNode} :
    ∀ children : List SyntaxNode,
      .slice m ∈ l.checksBelow depth schema children → m ∈ SyntaxNode.preorderList children
  | [] => fun h => absurd h List.not_mem_nil
  | child :: rest => by
    intro h
    have hrest := mem_preorder_of_sliceBelow depth schema (m := m) rest
    rw [SyntaxNode.preorderList, List.mem_append]
    rw [checksBelow] at h
    split at h
    · exact Or.inr (hrest h)
    · rcases List.mem_cons.1 h with h | h
      · rw [Check.slice.injEq] at h
        subst h
        exact Or.inl m.mem_preorder_self
      · exact Or.inr (hrest h)
    · rcases List.mem_append.1 h with h | h
      · exact Or.inl (mem_preorder_of_slice depth child h)
      · exact Or.inr (hrest h)

end

/-! ## The first node too deep -/

/-- Where all byte ranges are slices, the first check to fail is that of the first level too
deep. -/
theorem findSome?_failure_of_slices {source : String} {checks : List Check}
    (slices : ∀ n, .slice n ∈ checks → (Check.slice n).failure? source = none) :
    checks.findSome? (Check.failure? source) =
      ((checks.filterMap Check.entered?).find? fun x => maxDepth < x.1).map
        fun x => .fault x.2.startLine .tooDeep := by
  induction checks with
  | nil => rfl
  | cons check rest ih =>
    have hrest := ih fun n hn => slices n (List.mem_cons_of_mem _ hn)
    rw [List.findSome?_cons]
    cases check with
    | slice n =>
      rw [slices n List.mem_cons_self]
      exact hrest
    | level depth n =>
      rw [List.filterMap_cons_some (f := Check.entered?) rfl, Check.failure?]
      by_cases hdepth : maxDepth < depth
      · rw [if_pos hdepth, List.find?_cons_of_pos (by simpa using hdepth)]
        rfl
      · rw [if_neg hdepth, List.find?_cons_of_neg (by simpa using hdepth)]
        exact hrest

mutual

/-- Levels grow by one, so the first node below `maxDepth` stands one level below it. -/
theorem find?_keptLevels (depth : Nat) (h : depth ≤ maxDepth + 1) :
    ∀ n : SyntaxNode, (l.keptLevels depth n).find? (fun x => maxDepth < x.1) =
      (l.keptLevels depth n).find? fun x => x.1 = maxDepth + 1
  | ⟨label, children⟩ => by
    rw [keptLevels]
    by_cases hdepth : depth = maxDepth + 1
    · rw [List.find?_cons_of_pos (by simp [hdepth]), List.find?_cons_of_pos (by simp [hdepth])]
    · have hlt : depth + 1 ≤ maxDepth + 1 := by omega
      rw [List.find?_cons_of_neg (by simp; omega), List.find?_cons_of_neg (by simpa using hdepth),
        find?_keptLevelsBelow (depth + 1) hlt]

theorem find?_keptLevelsBelow (depth : Nat) (h : depth ≤ maxDepth + 1)
    (schema : Option NodeSchema) :
    ∀ children : List SyntaxNode,
      (l.keptLevelsBelow depth schema children).find? (fun x => maxDepth < x.1) =
        (l.keptLevelsBelow depth schema children).find? fun x => x.1 = maxDepth + 1
  | [] => rfl
  | child :: rest => by
    have hrest := find?_keptLevelsBelow depth h schema rest
    rw [keptLevelsBelow]
    split
    · rw [List.find?_append, List.find?_append, find?_keptLevels depth h child, hrest]
    · exact hrest

end

/-- **Where all byte ranges are slices, a lowering fails at the first kept node that is too deep,
and at nothing else.** -/
theorem lower_eq_error_iff {root : SyntaxNode}
    (slices : ∀ n ∈ root.preorder, (l.textOf? n).isSome) (e : ParseError) :
    l.lower root = .error e ↔
      ∃ x, (l.keptLevels 0 root).find? (fun x => x.1 = maxDepth + 1) = some x ∧
        e = .fault x.2.startLine .tooDeep := by
  have hslices : ∀ n, .slice n ∈ l.checks 0 root → (Check.slice n).failure? l.source = none :=
    fun n hn => if_pos (slices n (mem_preorder_of_slice 0 root hn))
  rw [lower, lowerAt_eq_error_iff, findSome?_failure_of_slices hslices, filterMap_entered_checks,
    find?_keptLevels 0 (Nat.zero_le _), Option.map_eq_some_iff]
  simp only [eq_comm (a := e)]

/-- There is a first node too deep exactly if not all are within the bound. -/
theorem find?_keptLevels_eq_none_iff {root : SyntaxNode} :
    (l.keptLevels 0 root).find? (fun x => x.1 = maxDepth + 1) = none ↔
      ∀ x ∈ l.keptLevels 0 root, x.1 ≤ maxDepth := by
  rw [← find?_keptLevels 0 (Nat.zero_le _), List.find?_eq_none]
  simp

end Lowering

/-! ## Old statements -/

namespace SyntaxNode

/-- The node is a statement that has become a function call. -/
def isOldStatement (n : SyntaxNode) : Bool :=
  n.kind = "print_statement" || n.kind = "exec_statement"

theorem oldKeyword?_eq (n : SyntaxNode) :
    n.oldKeyword? =
      if n.isOldStatement then some (if n.kind = "print_statement" then "print" else "exec")
      else none := by
  rw [oldKeyword?, oldStatements, SortedMap.lookup_cons_ite, SortedMap.lookup_cons_ite,
    isOldStatement]
  by_cases hprint : n.kind = "print_statement"
  · simp [hprint]
  · by_cases hexec : n.kind = "exec_statement"
    · simp [hexec]
    · simp [hprint, hexec]

/-- The failure of a tree with an old statement is that of the first one in document order. -/
theorem firstOldStatement?_eq (root : SyntaxNode) :
    root.firstOldStatement? = (root.preorder.find? isOldStatement).map fun n =>
      .fault n.startLine
        (.missingParentheses (if n.kind = "print_statement" then "print" else "exec")) := by
  have hmatch : (fun n : SyntaxNode => n.oldKeyword?.isSome) = isOldStatement := by
    funext n
    rw [oldKeyword?_eq]
    cases n.isOldStatement <;> rfl
  rw [firstOldStatement?, findFirst_eq_find?, reachable_eq_preorder, hmatch]
  cases hfind : root.preorder.find? isOldStatement with
  | none => rfl
  | some n =>
    have hold : n.isOldStatement = true := List.find?_some hfind
    have hkeyword : n.oldKeyword? =
        some (if n.kind = "print_statement" then "print" else "exec") := by
      rw [oldKeyword?_eq, if_pos hold]
    show (n.oldKeyword? >>= fun keyword => _) = _
    rw [hkeyword]
    rfl

theorem firstFault_eq (source : String) (root : SyntaxNode) :
    ∃ what, root.firstFault source =
      .fault (((root.reachable fun n => n.label.hasError).find? isFaulty).getD root).startLine
        what := by
  rw [firstFault, firstFaulty?, findFirst_eq_find?]
  cases (root.reachable fun n => n.label.hasError).find? isFaulty with
  | none => exact ⟨_, rfl⟩
  | some n => exact ⟨_, rfl⟩

end SyntaxNode

/-! ## Acceptance -/

section

variable {options : TreeOptions} {source : String} {root : SyntaxNode}

/-- A tree with an error is refused at its first faulty node. -/
theorem pythonRawTree_of_hasError (options : TreeOptions) (source : String)
    (herror : root.label.hasError = true) :
    ∃ n what, pythonRawTree options source root = .error (.fault n.startLine what) ∧
      n = ((root.reachable fun n => n.label.hasError).find? SyntaxNode.isFaulty).getD root := by
  obtain ⟨what, hfault⟩ := root.firstFault_eq source
  refine ⟨_, what, ?_, rfl⟩
  rw [pythonRawTree, if_pos herror, hfault]

theorem pythonRawTree_of_oldStatement {n : SyntaxNode} (herror : root.label.hasError = false)
    (hold : root.preorder.find? SyntaxNode.isOldStatement = some n) :
    pythonRawTree options source root = .error (.fault n.startLine
      (.missingParentheses (if n.kind = "print_statement" then "print" else "exec"))) := by
  rw [pythonRawTree, herror, if_neg Bool.false_ne_true, SyntaxNode.firstOldStatement?_eq, hold]
  rfl

theorem pythonRawTree_of_plain (herror : root.label.hasError = false)
    (hold : root.preorder.find? SyntaxNode.isOldStatement = none) :
    pythonRawTree options source root = Lowering.lower ⟨pythonSchema, source, options⟩ root := by
  rw [pythonRawTree, herror, if_neg Bool.false_ne_true, SyntaxNode.firstOldStatement?_eq, hold]
  rfl

theorem lower_of_pythonRawTree {raw : RawNode} (h : pythonRawTree options source root = .ok raw) :
    Lowering.lower ⟨pythonSchema, source, options⟩ root = .ok raw := by
  rw [pythonRawTree] at h
  split at h
  · cases h
  · split at h
    · cases h
    · exact h

end

theorem toNat_lineOfRow {row : Nat} (h : row + 1 < UInt32.size) :
    (lineOfRow row).toNat = row + 1 := by
  rw [lineOfRow, UInt32.toNat_add, UInt32.toNat_ofNat', UInt32.toNat_one]
  have hsize : UInt32.size = 2 ^ 32 := rfl
  omega

/-- Where all byte ranges are slices, a lowering succeeds exactly if it keeps nothing too deep. -/
theorem Lowering.exists_lower_iff {l : Lowering} {root : SyntaxNode}
    (slices : ∀ n ∈ root.preorder, (l.textOf? n).isSome) :
    (∃ raw, l.lower root = .ok raw) ↔ ∀ x ∈ l.keptLevels 0 root, x.1 ≤ maxDepth := by
  have hfail : ∀ e, l.lower root = .error e ↔
      ((l.keptLevels 0 root).find? fun x => x.1 = maxDepth + 1).map
        (fun x => .fault x.2.startLine .tooDeep) = some e := by
    intro e
    rw [lower_eq_error_iff slices, Option.map_eq_some_iff]
    simp only [eq_comm (a := e)]
  rw [exists_eq_ok_iff hfail, Option.map_eq_none_iff]
  exact find?_keptLevels_eq_none_iff

/-- **Which sources have a tree.** If the byte ranges of its nodes are slices of the source, a tree
is accepted exactly if it has no error, no old statement anywhere, and no kept node below level
256. Any other is a fault of the source: at its first faulty node, if it has an error; else at its
first old statement; else at the first kept node of level 257, in document order. The line of a
node is one more than the row on which it starts, if that is a 32-bit word. -/
theorem pythonParser_accepts (tree? : String → Option SyntaxNode) (options : TreeOptions)
    (source : String) (root : SyntaxNode) (answer : tree? source = some root)
    (slices : ∀ n ∈ root.preorder,
      (Text.sliceBytes source n.label.startByte n.label.endByte).isSome) :
    let outcome := (pythonParser tree? options).parse source
    let kept := Lowering.keptLevels ⟨pythonSchema, source, options⟩ 0 root
    ((∃ raw, outcome = .ok raw) ↔
      root.label.hasError = false ∧ (∀ n ∈ root.preorder, n.isOldStatement = false) ∧
        ∀ x ∈ kept, x.1 ≤ 256) ∧
    (∀ e, outcome = .error e → ∃ line what, e = .fault line what) ∧
    (root.label.hasError = true → ∃ n what, outcome = .error (.fault n.startLine what) ∧
      n = ((root.reachable fun n => n.label.hasError).find? SyntaxNode.isFaulty).getD root) ∧
    (root.label.hasError = false →
      ∀ n, root.preorder.find? SyntaxNode.isOldStatement = some n →
        outcome = .error (.fault n.startLine
          (.missingParentheses (if n.kind = "print_statement" then "print" else "exec")))) ∧
    (root.label.hasError = false → (∀ n ∈ root.preorder, n.isOldStatement = false) →
      ∀ x, kept.find? (fun x => x.1 = 257) = some x →
        outcome = .error (.fault x.2.startLine .tooDeep)) ∧
    ∀ n : SyntaxNode, n.label.startPoint.row + 1 < UInt32.size →
      n.startLine.toNat = n.label.startPoint.row + 1 := by
  intro outcome kept
  have hlines : ∀ n : SyntaxNode, n.label.startPoint.row + 1 < UInt32.size →
      n.startLine.toNat = n.label.startPoint.row + 1 := fun _ => toNat_lineOfRow
  have houtcome : outcome = pythonRawTree options source root := by
    simp only [outcome, pythonParser, answer]
  rw [houtcome]
  cases herror : root.label.hasError with
  | true =>
    obtain ⟨n, what, hfault, hn⟩ := pythonRawTree_of_hasError options source herror
    rw [hfault]
    refine ⟨iff_of_false nofun fun h => absurd h.1 nofun, ?_, fun _ => ⟨n, what, rfl, hn⟩,
      nofun, nofun, hlines⟩
    rintro e h
    cases h
    exact ⟨_, _, rfl⟩
  | false =>
    cases hold : root.preorder.find? SyntaxNode.isOldStatement with
    | some n =>
      have hmem : n.isOldStatement = true := List.find?_some hold
      have hnot : ¬ ∀ n ∈ root.preorder, n.isOldStatement = false := fun h =>
        absurd ((h n (List.mem_of_find?_eq_some hold)).symm.trans hmem) nofun
      rw [pythonRawTree_of_oldStatement herror hold]
      refine ⟨iff_of_false nofun fun h => hnot h.2.1, ?_, nofun, ?_, fun _ h => absurd h hnot,
        hlines⟩
      · rintro e h
        cases h
        exact ⟨_, _, rfl⟩
      · rintro - m hm
        cases hm
        rfl
    | none =>
      have hnone : ∀ n ∈ root.preorder, n.isOldStatement = false := by
        simpa using List.find?_eq_none.1 hold
      have hlower := Lowering.lower_eq_error_iff (l := ⟨pythonSchema, source, options⟩) slices
      have hok : (∃ raw, Lowering.lower ⟨pythonSchema, source, options⟩ root = .ok raw) ↔
          ∀ x ∈ kept, x.1 ≤ 256 :=
        Lowering.exists_lower_iff (l := ⟨pythonSchema, source, options⟩) slices
      rw [pythonRawTree_of_plain herror hold]
      refine ⟨?_, fun e h => ?_, nofun, nofun, fun _ _ x hx => (hlower _).2 ⟨x, hx, rfl⟩, hlines⟩
      · exact ⟨fun h => ⟨rfl, hnone, hok.1 h⟩, fun h => hok.2 h.2.2⟩
      · obtain ⟨x, -, rfl⟩ := (hlower e).1 h
        exact ⟨_, _, rfl⟩

/-- A name and a comment behind it. -/
def commentedTree : SyntaxNode :=
  let node (kind : String) (extra : Bool) (start stop : Nat) (children : List SyntaxNode) :
      SyntaxNode :=
    ⟨⟨kind, true, extra, false, false, false, none, start, stop, ⟨0, start⟩, ⟨0, stop⟩⟩, children⟩
  node "module" false 0 5
    [node "expression_statement" false 0 1 [node "identifier" false 0 1 []],
      node "comment" true 2 5 []]

theorem pythonParser_accepts_commented :
    (∀ n ∈ commentedTree.preorder,
      (Text.sliceBytes "a # b" n.label.startByte n.label.endByte).isSome) ∧
    ∃ raw, (pythonParser (fun _ => some commentedTree) { includeComments := true }).parse "a # b" =
      .ok raw := by
  have slices : ∀ n ∈ commentedTree.preorder,
      (Text.sliceBytes "a # b" n.label.startByte n.label.endByte).isSome := by decide
  obtain ⟨haccepts, -⟩ := pythonParser_accepts (fun _ => some commentedTree)
    { includeComments := true } "a # b" commentedTree rfl slices
  exact ⟨slices, haccepts.2 ⟨rfl, by decide, by decide⟩⟩

end SyntaxGraph
