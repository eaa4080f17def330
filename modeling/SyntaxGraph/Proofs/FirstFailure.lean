import SyntaxGraph.Proofs.Acceptance
import SyntaxGraph.Proofs.Slices

/-!
# The first check that fails

A lowering fails with the failure of the first of its checks that fails. Here the checks are said
in the words of the tree: what is asked of a child depends on whether it is a token or kept, and
the text of a node is asked for once its fields are known, if there is no node in them.

The source may be any text, so a tree may be lowered against a source that it is not the tree of.
A byte range is then a slice only by chance, and the first one that is none is named.

Main statement: `lower_firstFailure`.
-/

namespace SyntaxGraph

/-! ## What is asked of a child -/

/-- The text of a child is kept: the child is not extra, and its field is one of tokens. -/
def keepsText (schema : Option NodeSchema) (child : NodeLabel) : Bool :=
  !child.isExtra && child.field.any fun field => fieldShape schema field child = .scalar

theorem keepsText_eq_true_iff (options : TreeOptions) (schema : Option NodeSchema)
    (child : NodeLabel) :
    keepsText schema child = true ↔ ∃ field, placement options schema child = .token field := by
  constructor
  · intro h
    cases hfield : child.field with
    | none => simp [keepsText, hfield] at h
    | some field =>
      have htoken : child.isExtra = false ∧ fieldShape schema field child = .scalar := by
        simpa [keepsText, hfield] using h
      exact ⟨field, by rw [placement_of_field htoken.1 hfield, if_pos htoken.2]⟩
  · rintro ⟨field, h⟩
    obtain ⟨hextra, hfield, hshape⟩ := of_placement_token h
    simp [keepsText, hextra, hfield, hshape]

namespace Lowering

variable {l : Lowering}

/-- What the walk asks of a child, by the schema of its parent: its text if it is a token, all
checks of its subtree if it is kept, and nothing of any other child. -/
def asks (l : Lowering) (depth : Nat) (schema : Option NodeSchema) (child : SyntaxNode) :
    List Check :=
  if keepsText schema child.label then [.slice child]
  else if keepsChild l.options schema child.label then l.checks depth child
  else []

theorem checksBelow_eq_flatMap (depth : Nat) (schema : Option NodeSchema)
    (children : List SyntaxNode) :
    l.checksBelow depth schema children = children.flatMap (l.asks depth schema) := by
  induction children with
  | nil => rfl
  | cons child rest ih =>
    have htext := keepsText_eq_true_iff l.options schema child.label
    have hkeeps := keepsChild_eq_true_iff l.options schema child.label
    rw [checksBelow, List.flatMap_cons, asks, ← ih]
    cases hp : placement l.options schema child.label with
    | ignored => simp [htext, hkeeps, hp]
    | token field => simp [htext, hp]
    | kept field shape => simp [htext, hkeeps, hp]

/-- The checks of a node: its level, what is asked of its children, and its own text. -/
theorem checks_eq (depth : Nat) (n : SyntaxNode) :
    l.checks depth n = .level depth n ::
      (n.children.flatMap (l.asks (depth + 1) (l.schema.node? n.kind)) ++
        if l.wantsText n then [.slice n] else []) := by
  obtain ⟨label, children⟩ := n
  rw [checks, checksBelow_eq_flatMap]
  rfl

/-- The text of a node is wanted if what was placed leaves it without a node and without a field of
that name. -/
theorem wantsText_iff {depth : Nat} {n : SyntaxNode} {placed : List Placed}
    (h : l.placeChildren depth (l.schema.node? n.kind) n.children = .ok placed) :
    l.wantsText n = true ↔ l.options.includeLeafText = true ∧
      RawNode.hasNodeChildren ⟨n.kind, l.ownFields n.kind placed⟩ = false ∧
      RawNode.field? ⟨n.kind, l.ownFields n.kind placed⟩ textField = none := by
  have hplaces := placeChildren_eq_ok_iff.1 h
  rw [wantsText, hplaces.hasNodeChildren_outline, hplaces.field?_outline]
  simp [and_assoc]

end Lowering

/-! ## How a check fails -/

namespace Check

variable {source : String} {e : ParseError}

theorem failure?_level {depth : Nat} {n : SyntaxNode} :
    (level depth n).failure? source = some e ↔
      256 < depth ∧ e = .fault (lineOfRow n.label.startPoint.row) .tooDeep := by
  rw [failure?, @eq_comm _ e]
  by_cases hdepth : maxDepth < depth
  · rw [if_pos hdepth, Option.some.injEq]
    exact (and_iff_right hdepth).symm
  · rw [if_neg hdepth]
    exact iff_of_false nofun fun h => hdepth h.1

theorem failure?_slice {n : SyntaxNode} :
    (slice n).failure? source = some e ↔
      (¬ ∃ text, Text.IsSlice source n.label.startByte n.label.endByte text) ∧
        e = .invalidRange n.kind n.label.startByte n.label.endByte := by
  rw [failure?, @eq_comm _ e, ← Text.isSome_sliceBytes_iff]
  by_cases hslice : (Text.sliceBytes source n.label.startByte n.label.endByte).isSome
  · rw [if_pos hslice]
    exact iff_of_false nofun fun h => h.1 hslice
  · rw [if_neg hslice, Option.some.injEq]
    exact (and_iff_right hslice).symm

end Check

/-- **A lowering fails with the failure of the first check that fails**, whatever the source. It
enters the root and every kept child and checks their levels on the way in; from left to right, it
asks for the texts of tokens and walks the kept children; and on the way out it asks for the text
of a node in whose fields no node was placed. A check of a level fails beyond level 256 with the
line of the node, which is one more than its row, and a check of a text fails where the source
cannot be cut, with the kind of the node and the two offsets. -/
theorem lower_firstFailure (l : Lowering) (root : SyntaxNode) :
    ((∃ raw, l.lower root = .ok raw) ↔ ∀ c ∈ l.checks 0 root, c.failure? l.source = none) ∧
    (∀ e, l.lower root = .error e ↔
      ∃ before c after, l.checks 0 root = before ++ c :: after ∧
        c.failure? l.source = some e ∧ ∀ b ∈ before, b.failure? l.source = none) ∧
    (∀ depth n, l.checks depth n = .level depth n ::
      (n.children.flatMap (l.asks (depth + 1) (l.schema.node? n.kind)) ++
        if l.wantsText n then [.slice n] else [])) ∧
    (∀ depth n placed,
      l.placeChildren depth (l.schema.node? n.kind) n.children = .ok placed →
      (l.wantsText n = true ↔ l.options.includeLeafText = true ∧
        RawNode.hasNodeChildren ⟨n.kind, l.ownFields n.kind placed⟩ = false ∧
        RawNode.field? ⟨n.kind, l.ownFields n.kind placed⟩ textField = none)) ∧
    (∀ depth n e, (Check.level depth n).failure? l.source = some e ↔
      256 < depth ∧ e = .fault (lineOfRow n.label.startPoint.row) .tooDeep) ∧
    (∀ row, row + 1 < UInt32.size → (lineOfRow row).toNat = row + 1) ∧
    (∀ n e, (Check.slice n).failure? l.source = some e ↔
      (¬ ∃ text, Text.IsSlice l.source n.label.startByte n.label.endByte text) ∧
        e = .invalidRange n.kind n.label.startByte n.label.endByte) ∧
    SyntaxFault.tooDeep.message = "too many nested levels (limit 256)" ∧
    (∀ kind start stop, (ParseError.invalidRange kind start stop).message =
      "node '" ++ kind ++ "' spans invalid byte range " ++ toString start ++ ".." ++
        toString stop) := by
  refine ⟨?_, fun e => ?_, fun depth n => Lowering.checks_eq depth n,
    fun depth n placed h => Lowering.wantsText_iff h, fun depth n e => Check.failure?_level,
    fun row => toNat_lineOfRow, fun n e => Check.failure?_slice, by decide,
    fun kind start stop => rfl⟩
  · rw [Lowering.lower, Lowering.exists_lowerAt_iff, List.findSome?_eq_none_iff]
  · rw [Lowering.lower, Lowering.lowerAt_eq_error_iff, List.findSome?_eq_some_iff]

/-- A name between two bytes. -/
def nameAt (start stop : Nat) : SyntaxNode :=
  ⟨⟨"name", true, false, false, false, false, none, start, stop, ⟨0, start⟩, ⟨0, stop⟩⟩, []⟩

/-- A module whose names are no slices of its source: the first ends inside a character, and the
second is beyond the end. -/
def strayNames : SyntaxNode :=
  ⟨⟨"module", true, false, false, false, false, none, 0, 2, ⟨0, 0⟩, ⟨0, 2⟩⟩,
    [nameAt 0 1, nameAt 5 7]⟩

theorem lower_firstFailure_strayNames :
    let l : Lowering := ⟨⟨∅⟩, "é", {}⟩
    l.placeChildren 2 (l.schema.node? "name") (nameAt 0 1).children = .ok [] ∧
    l.wantsText (nameAt 0 1) = true ∧
    l.lower strayNames = .error (.invalidRange "name" 0 1) := by
  intro l
  obtain ⟨-, herror, -, htext, -⟩ := lower_firstFailure l strayNames
  refine ⟨rfl, (htext 2 (nameAt 0 1) [] rfl).2 ⟨rfl, rfl, rfl⟩, (herror _).2 ?_⟩
  refine ⟨[.level 0 strayNames, .level 1 (nameAt 0 1)], .slice (nameAt 0 1),
    [.level 1 (nameAt 5 7), .slice (nameAt 5 7)], rfl, by decide, ?_⟩
  exact List.forall_mem_cons.2 ⟨rfl, List.forall_mem_singleton.2 rfl⟩

end SyntaxGraph
