import ContractExpr.Proofs.Roundtrip.Accepted
import ContractExpr.Proofs.Session.Peak

/-! # Whether formatting deepens an expression

The rendering of a tree needs no more levels than the source that the tree was read from, and one
more where the source leaves out the value of a field: the rendering gives that value, which is an
expression of its own.
-/

set_option autoImplicit false

namespace ContractExpr.Expr

open Token Grammar

/-- The source has a derivation in which each field of a struct instance has a value. -/
def GivesValues (source : String) : Prop :=
  ∃ kinds left tree, significantKinds source = kinds ++ [.endOfInput] ∧
    Derives false left (.expression tree) kinds

/-- The rendering of a well-named tree needs the levels that the tree opens when it is written. -/
theorem needs_render {tree : Expr} (named : tree.WellNamed) : Needs tree.render tree.levels := by
  intro limit
  constructor
  · rintro ⟨read, after, accepted⟩
    exact levels_le_of_accepted named accepted
  · intro fits
    obtain ⟨read, after, accepted, _⟩ :=
      accepted_of_derives (significantKinds_render named) ((spelled false tree).whole limit fits)
    exact ⟨read, after, accepted⟩

theorem strict_of_givesValues {source : String} {tree : Expr} {kinds : List Kind} {brief : Bool}
    {left : Nat} (gives : GivesValues source)
    (shape : significantKinds source = kinds ++ [.endOfInput])
    (derived : Derives brief left (.expression tree) kinds) :
    Derives false left (.expression tree) kinds := by
  obtain ⟨kinds', left', other, shape', strict⟩ := gives
  rw [shape, List.append_cancel_right_eq] at shape'
  subst shape'
  have same := alike_of_derives strict derived
  have written : colonsIn kinds = tree.colons := (strict.alike (.expression same)).colonsIn_eq
  exact derived.counted.strict written

theorem derives_peak {source : String} {tree : Expr} (read : parse source = .ok tree) :
    ∃ kinds, significantKinds source = kinds ++ [.endOfInput] ∧
      Derives true (Session.peak source) (.expression tree) kinds := by
  obtain ⟨after, accepted⟩ := accepted_peak read
  exact derives_of_accepted accepted

/-- The tree of an accepted source needs at most one level more to be written than were open at once
while the source was read, and no more than these if each field of the source has its value. -/
theorem render_needs {source : String} {tree : Expr} (read : parse source = .ok tree) :
    Needs tree.render tree.levels ∧
      tree.levels ≤ Session.peak source + 1 ∧
      (GivesValues source → tree.levels ≤ Session.peak source) ∧
      (∀ reread, parse tree.render = .ok reread → Session.peak tree.render = tree.levels) := by
  obtain ⟨kinds, shape, derived⟩ := derives_peak read
  have needs := needs_render (wellNamed_of_derives shape derived)
  refine ⟨needs, derived.levels_le, ?_, ?_⟩
  · intro gives
    exact (strict_of_givesValues gives shape derived).levels_le
  · intro reread parsed
    exact (needs_peak parsed).unique needs

/-- The parentheses around the operand open a level that its rendering does not need. -/
theorem render_needs_grouped :
    GivesValues "-(a)" ∧ ∃ tree, parse "-(a)" = .ok tree ∧ tree.levels = 2 ∧
      Needs tree.render 2 ∧ 2 ≤ Session.peak "-(a)" := by
  let name : Expr := .identifier "a" Info.built
  have shape : significantKinds "-(a)" =
      [.symbol .minus, .symbol .leftParen, .name "a", .symbol .rightParen] ++ [.endOfInput] := by
    decide +kernel
  have operand : Derives false 1 (.signed name)
      [.symbol .leftParen, .name "a", .symbol .rightParen] :=
    .unsigned (.unsuffixed (.group (derives_kinds name)))
  have derived := derives_negated 1 operand
  obtain ⟨tree, read, same⟩ := parse_of_derives shape (derived.mono (by decide))
  have gives : GivesValues "-(a)" := ⟨_, _, _, shape, derived⟩
  have strong : Precedence.sign ≤ name.precedence := by decide
  have levels : tree.levels = 2 := (levels_eq_of_alike same).trans (levels_negated 1 strong)
  obtain ⟨needs, _, noDeeper, _⟩ := render_needs read
  rw [levels] at needs noDeeper
  exact ⟨gives, tree, read, levels, needs, noDeeper gives⟩

/-- A field without a value under so many signs is one level deeper in the rendering. -/
theorem shorthand_deepens {count : Nat} (fits : count < Parser.nestingLimit) :
    ¬GivesValues (signedShorthand count) ∧ ∃ tree, parse (signedShorthand count) = .ok tree ∧
      Session.peak (signedShorthand count) = count + 1 ∧ tree.levels = count + 2 := by
  have shape := significantKinds_signedShorthand count
  have derived : Derives true (count + 1) (.expression (negated count shorthandTree)) _ :=
    (derives_negated count (derives_shorthandTree 0)).mono (by omega)
  obtain ⟨tree, read, same⟩ := parse_of_derives shape (derived.mono fits)
  have strong : Precedence.sign ≤ shorthandTree.precedence := by decide
  have levels : tree.levels = 2 + count :=
    (levels_eq_of_alike same).trans (levels_negated count strong)
  obtain ⟨kinds, shape', derived'⟩ := derives_peak read
  have deep : tree.levels ≤ Session.peak (signedShorthand count) + 1 := derived'.levels_le
  obtain ⟨given, after, accepted, _⟩ := accepted_of_derives shape derived
  have enough := (needs_peak read (count + 1)).mp ⟨given, after, accepted⟩
  refine ⟨fun gives => ?_, tree, read, by omega, by omega⟩
  have flat : tree.levels ≤ Session.peak (signedShorthand count) :=
    (strict_of_givesValues gives shape' derived').levels_le
  omega

end ContractExpr.Expr
