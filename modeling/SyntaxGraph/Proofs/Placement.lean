import SyntaxGraph.Proofs.Filing

/-!
# Where a child can be placed

A child is placed by what it is: a comment under a field of its own, a child without a field under
another, and any other child under its own field, in the shape that the schema or else the child
gives to it. This holds of every child, whether it agrees with the schema or not.
-/

namespace SyntaxGraph

section

variable {options : TreeOptions} {schema : Option NodeSchema} {child : NodeLabel}
  {field : String} {shape : FieldShape}

theorem placement_of_extra (hextra : child.isExtra = true) :
    placement options schema child =
      if options.includeComments && child.kind = "comment" then .kept commentsField .childList
      else .ignored := by
  rw [placement, if_pos hextra]

theorem placement_of_no_field (hextra : child.isExtra = false) (hfield : child.field = none) :
    placement options schema child =
      if child.isNamed then .kept unnamedField ((schema.bind (·.children)).getD .childList)
      else .ignored := by
  rw [placement, if_neg (Bool.eq_false_iff.1 hextra), hfield]

theorem placement_of_field (hextra : child.isExtra = false) (hfield : child.field = some field) :
    placement options schema child =
      if fieldShape schema field child = .scalar then .token field
      else if child.isNamed then .kept field (fieldShape schema field child) else .ignored := by
  cases hshape : fieldShape schema field child <;> simp [placement, hextra, hfield, hshape]

/-- A token stands in a field whose shape is that of tokens. -/
theorem of_placement_token (h : placement options schema child = .token field) :
    child.isExtra = false ∧ child.field = some field ∧
      fieldShape schema field child = .scalar := by
  cases hextra : child.isExtra with
  | true =>
    rw [placement_of_extra hextra] at h
    split at h <;> cases h
  | false =>
    cases hfield : child.field with
    | none =>
      rw [placement_of_no_field hextra hfield] at h
      split at h <;> cases h
    | some name =>
      rw [placement_of_field hextra hfield] at h
      by_cases hscalar : fieldShape schema name child = .scalar
      · rw [if_pos hscalar] at h
        cases h
        exact ⟨rfl, rfl, hscalar⟩
      · rw [if_neg hscalar] at h
        split at h <;> cases h

/-- What is kept is a comment, a named child without a field, or a named child in a field of
nodes. -/
theorem of_placement_kept (h : placement options schema child = .kept field shape) :
    (child.isExtra = true ∧ options.includeComments = true ∧ field = commentsField) ∨
    (child.isExtra = false ∧ child.field = none ∧ field = unnamedField) ∨
    (child.isExtra = false ∧ child.field = some field ∧
      shape = fieldShape schema field child ∧ shape ≠ .scalar) := by
  cases hextra : child.isExtra with
  | true =>
    rw [placement_of_extra hextra] at h
    split at h
    · rename_i hcomment
      cases h
      exact Or.inl ⟨rfl, by simpa using (Bool.and_eq_true_iff.1 hcomment).1, rfl⟩
    · cases h
  | false =>
    refine Or.inr ?_
    cases hfield : child.field with
    | none =>
      rw [placement_of_no_field hextra hfield] at h
      split at h
      · cases h
        exact Or.inl ⟨rfl, rfl, rfl⟩
      · cases h
    | some name =>
      rw [placement_of_field hextra hfield] at h
      by_cases hscalar : fieldShape schema name child = .scalar
      · rw [if_pos hscalar] at h
        cases h
      · rw [if_neg hscalar] at h
        split at h
        · cases h
          exact Or.inr ⟨rfl, rfl, rfl, hscalar⟩
        · cases h

end

end SyntaxGraph
