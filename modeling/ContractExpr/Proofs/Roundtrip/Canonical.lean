import ContractExpr.Proofs.Roundtrip.Rendering

/-! # Renderings as canonical forms

Alike trees have one rendering, and well-named trees with one rendering are alike. The levels they
open do not matter: that tokens stand for one tree only holds with any number of levels.
-/

set_option autoImplicit false

namespace ContractExpr.Expr

open Token Grammar

theorem kinds_eq_of_render_eq {left right : Expr} (leftNamed : left.WellNamed)
    (rightNamed : right.WellNamed) (same : left.render = right.render) :
    left.kinds = right.kinds := by
  have tokens : left.kinds ++ [.endOfInput] = right.kinds ++ [.endOfInput] := by
    rw [← significantKinds_render leftNamed, same, significantKinds_render rightNamed]
  exact List.append_cancel_right tokens

theorem render_canonical (left right : Expr) :
    (left.alike right = true → left.render = right.render) ∧
      (left.WellNamed → right.WellNamed → left.render = right.render →
        left.alike right = true) := by
  constructor
  · exact render_eq_of_alike
  · intro leftNamed rightNamed same
    have derivedLeft := derives_kinds left
    have derivedRight := derives_kinds right
    rw [kinds_eq_of_render_eq leftNamed rightNamed same] at derivedLeft
    exact alike_of_derives derivedLeft derivedRight

/-- A double negation built by hand and one read at another place. -/
theorem render_canonical_notNot :
    let left := Expr.unary .not (.unary .not (.identifier "a" Info.built) Info.built) Info.built
    let right := Expr.unary .not (.unary .not (.identifier "a" ⟨1, Span.placeholder⟩)
      ⟨2, Span.placeholder⟩) ⟨3, Span.placeholder⟩
    left ≠ right ∧ left.WellNamed ∧ right.WellNamed ∧ left.render = right.render ∧
      left.alike right = true := by
  intro left right
  have usable : UsableName "a" := ⟨by decide, by decide⟩
  have leftNamed : left.WellNamed := List.forall_mem_singleton.mpr usable
  have rightNamed : right.WellNamed := List.forall_mem_singleton.mpr usable
  have same : left.alike right = true := rfl
  have rendered := (render_canonical left right).1 same
  exact ⟨by simp [left, right, Info.built], leftNamed, rightNamed, rendered,
    (render_canonical left right).2 leftNamed rightNamed rendered⟩

end ContractExpr.Expr
