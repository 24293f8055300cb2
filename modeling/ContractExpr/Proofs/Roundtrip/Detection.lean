import ContractExpr.Proofs.Roundtrip.Frontends
import ContractExpr.Proofs.Roundtrip.Rendering
import ContractExpr.Proofs.Roundtrip.Swapping

/-! # Broken front-ends are noticed

A check with a broken front-end fails for every tree on which the front-end shows its fault, and it
fails in the way that belongs to the fault: a text that does not parse, a text that changes when it
is rendered again, or a tree that means something else.
-/

set_option autoImplicit false

namespace ContractExpr

open Token Grammar

namespace Expr

theorem parse_render_unbalanced {tree : Expr} (named : tree.WellNamed)
    (fits : tree.levels ≤ Parser.nestingLimit) :
    ∃ error, parse (tree.render ++ ")") = .error error ∧
      error.cause = .unexpectedToken .endOfInput (.symbol .rightParen) := by
  have shape := significantKinds_render_append named ")" ((endsWord_cons _ _).mpr rfl)
  have closing : significantKinds ")" = [.symbol .rightParen, .endOfInput] := by decide +kernel
  rw [closing] at shape
  have derived := (spelled false tree).whole Parser.nestingLimit fits
  obtain ⟨read, after, accepted, _, front⟩ :=
    reads_of_derives shape Parser.endsExpression_rightParen derived
  obtain ⟨error, refused, cause⟩ := Parser.run_complete_of_symbol accepted front
  exact ⟨error, by rw [parse, Parser.input, refused]; rfl, cause⟩

theorem parse_render_spaces {tree : Expr} (named : tree.WellNamed)
    (fits : tree.levels ≤ Parser.nestingLimit) (count : Nat) :
    ∃ read, parse (tree.render ++ String.ofList (List.replicate count ' ')) = .ok read ∧
      read.alike tree = true := by
  have blank : ∀ c ∈ (String.ofList (List.replicate count ' ')).toList,
      c = ' ' := by
    rw [String.toList_ofList]
    exact fun c => List.eq_of_mem_replicate
  have ends : EndsWord (String.ofList (List.replicate count ' ')).toList := by
    intro c head
    rw [blank c (List.mem_of_head? head)]
    rfl
  have none : significantKinds (String.ofList (List.replicate count ' ')) = [.endOfInput] := by
    refine significantKinds_blanks fun c member => ?_
    rw [blank c member]
    rfl
  have shape := significantKinds_render_append named _ ends
  rw [none] at shape
  exact parse_of_derives shape ((spelled false tree).whole Parser.nestingLimit fits)

theorem IsQuiet.mapOps (f : BinaryOp → BinaryOp) (tree : Expr) (quiet : tree.IsQuiet) :
    (tree.mapOps f).IsQuiet := by
  cases tree <;> exact quiet

theorem withPlus_withPlus (tree : Expr) : tree.withPlus.withPlus = tree.withPlus := by
  have twice : BinaryOp.plusForMinus ∘ BinaryOp.plusForMinus = BinaryOp.plusForMinus := by
    funext op
    cases op <;> rfl
  rw [withPlus, withPlus, mapOps_mapOps, twice]

def Subtracts (tree : Expr) : Prop :=
  ∃ left right info, .expression (.binary .subtract left right info) ∈ tree.nodes

theorem alike_withPlus {tree : Expr} : tree.alike tree.withPlus = true ↔ ¬tree.Subtracts := by
  rw [withPlus, alike_mapOps]
  constructor
  · rintro everywhere ⟨left, right, info, member⟩
    cases everywhere _ member
  · intro none inner member
    cases inner with
    | binary op left right info =>
        cases op with
        | subtract => exact absurd ⟨left, right, info, member⟩ none
        | _ => rfl
    | _ => trivial

end Expr

namespace Frontend

open ContractExpr.Expr

variable {tree : Expr}

theorem check_unbalanced (named : tree.WellNamed) (fits : tree.levels ≤ Parser.nestingLimit) :
    ∃ error, unbalanced.check tree = .error (.unparseable (tree.render ++ ")") error) ∧
      error.cause = .unexpectedToken .endOfInput (.symbol .rightParen) := by
  obtain ⟨error, failed, cause⟩ := parse_render_unbalanced named fits
  exact ⟨error, check_of_refused failed, cause⟩

theorem check_drifting (named : tree.WellNamed) (fits : tree.levels ≤ Parser.nestingLimit)
    (count : Nat) :
    (drifting.check tree count).1 = .error (.notIdempotent
      (tree.render ++ String.ofList (List.replicate count ' '))
      (tree.render ++ String.ofList (List.replicate (count + 1) ' '))) := by
  obtain ⟨read, parsed, same⟩ := parse_render_spaces named fits count
  have again : (drifting.render read (count + 1)).1 =
      tree.render ++ String.ofList (List.replicate (count + 1) ' ') :=
    congrArg (· ++ String.ofList (List.replicate (count + 1) ' ')) (render_eq_of_alike same)
  have grown : tree.render ++ String.ofList (List.replicate count ' ') ≠
      tree.render ++ String.ofList (List.replicate (count + 1) ' ') := by
    intro equal
    have lengths := congrArg String.length equal
    simp at lengths
  rw [← again] at grown ⊢
  exact check_of_changed rfl (congrArg (·, count + 1) parsed) grown

/-! ## Additions for subtractions -/

/-- The front-end reads the tree with an addition for every subtraction, and renders it as it
rendered the tree itself. -/
theorem check_swappingMinus (named : tree.WellNamed) (fits : tree.levels ≤ Parser.nestingLimit)
    (quiet : tree.Everywhere IsQuiet) :
    ∃ read, read.alike tree.withPlus = true ∧ swappingMinus.check tree =
      if tree.alike tree.withPlus then .ok ()
      else .error (.structuralMismatch tree.withPlus.render read) := by
  have namedPlus : tree.withPlus.WellNamed := by
    rw [WellNamed, withPlus, words_mapOps]
    exact named
  have fitsPlus : tree.withPlus.levels ≤ Parser.nestingLimit := by
    rw [withPlus, levels_mapOps BinaryOp.precedence_plusForMinus]
    exact fits
  have quietPlus : tree.withPlus.Everywhere IsQuiet :=
    quiet.mapOps _ (IsQuiet.mapOps BinaryOp.plusForMinus)
  obtain ⟨read, parsed, same⟩ := parse_render namedPlus fitsPlus
  have rendered : swappingMinus.render tree = tree.withPlus.render :=
    plusForMinus_render named quiet
  have again : swappingMinus.render read = tree.withPlus.render := by
    change String.ofList (plusForMinus read.render.toList) = _
    rw [render_eq_of_alike same, plusForMinus_render namedPlus quietPlus, withPlus_withPlus]
  have alike : tree.alike read = tree.alike tree.withPlus :=
    Bool.eq_iff_iff.mpr
      ⟨fun near => alike_trans near same, fun near => alike_trans near (alike_symm same)⟩
  refine ⟨read, same, ?_⟩
  rw [check_of_stable (rendered ▸ parsed) (rendered.trans again.symm), alike, rendered]

/-- The front-ends that are broken on purpose are noticed on every tree that survives otherwise,
each for its own fault. Swapping is a fault for trees with a subtraction only. -/
theorem check_broken (named : tree.WellNamed) (fits : tree.levels ≤ Parser.nestingLimit) :
    (∃ error, unbalanced.check tree = .error (.unparseable (tree.render ++ ")") error) ∧
      error.cause = .unexpectedToken .endOfInput (.symbol .rightParen)) ∧
    (∀ count, (drifting.check tree count).1 = .error (.notIdempotent
      (tree.render ++ String.ofList (List.replicate count ' '))
      (tree.render ++ String.ofList (List.replicate (count + 1) ' ')))) ∧
    (tree.Everywhere IsQuiet →
      (tree.Subtracts → ∃ read, read.alike tree.withPlus = true ∧
        swappingMinus.check tree = .error (.structuralMismatch tree.withPlus.render read)) ∧
      (¬tree.Subtracts → swappingMinus.check tree = .ok ())) := by
  refine ⟨check_unbalanced named fits, check_drifting named fits, fun quiet => ?_⟩
  obtain ⟨read, same, outcome⟩ := check_swappingMinus named fits quiet
  constructor
  · intro subtracts
    rw [if_neg (alike_withPlus.not.mpr (not_not_intro subtracts))] at outcome
    exact ⟨read, same, outcome⟩
  · intro none
    rw [outcome, if_pos (alike_withPlus.mpr none)]

/-- A minus between two operands is noticed, a minus before an operand is left alone. -/
theorem check_broken_difference :
    let tree (op : BinaryOp) : Expr := .binary op (.identifier "a" Info.built)
      (.unary .negate (.identifier "b" Info.built) Info.built) Info.built
    (tree .subtract).render = "a - -b" ∧
      (∃ error, unbalanced.check (tree .subtract) = .error (.unparseable "a - -b)" error)) ∧
      (drifting.check (tree .subtract) 0).1 = .error (.notIdempotent "a - -b" "a - -b ") ∧
      (∃ read, read.alike (tree .add) = true ∧
        swappingMinus.check (tree .subtract) = .error (.structuralMismatch "a + -b" read)) ∧
      swappingMinus.check (tree .add) = .ok () := by
  intro tree
  have named (op : BinaryOp) : (tree op).WellNamed := by
    have words : (tree op).words = ["a", "b"] := by simp [tree]
    rw [WellNamed, words]
    simp only [List.forall_mem_cons, UsableName]
    decide
  have fits (op : BinaryOp) : (tree op).levels ≤ Parser.nestingLimit := by
    cases op <;> decide
  have quiet (op : BinaryOp) : (tree op).Everywhere IsQuiet := by
    intro inner member
    simp only [tree, nodes, List.cons_append, List.nil_append, List.mem_cons, List.not_mem_nil,
      or_false, Node.expression.injEq] at member
    rcases member with rfl | rfl | rfl | rfl <;> trivial
  have subtracts : (tree .subtract).Subtracts := ⟨_, _, _, List.mem_cons_self⟩
  have adds : ¬(tree .add).Subtracts := by
    simp [tree, Subtracts, nodes]
  obtain ⟨⟨error, unparseable, _⟩, drifts, swapped⟩ := check_broken (named .subtract) (fits _)
  have rendered : (tree .subtract).render = "a - -b" := by decide +kernel
  have swappedRender : (tree .subtract).withPlus.render = "a + -b" := by decide +kernel
  have drifted := drifts 0
  have mismatch := (swapped (quiet _)).1 subtracts
  rw [rendered] at unparseable drifted
  rw [swappedRender] at mismatch
  exact ⟨rendered, ⟨error, unparseable⟩, drifted, mismatch,
    ((check_broken (named .add) (fits _)).2.2 (quiet _)).2 adds⟩

end Frontend
end ContractExpr
