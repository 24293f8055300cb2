import ContractExpr.Proofs.Session.CallDepth
import ContractExpr.Proofs.Session.Functions

/-! # Levels mirror levels

Functions that call each other mirror the parsers of a level where those further in mirror the
parsers of the level below. So level by level a call of the parser answers what the parser of a
whole input replies.
-/

set_option autoImplicit false

namespace ContractExpr

variable {offset left : Nat} {calls : Descent.Calls}

namespace Mirrors

section Functions

variable (closed : calls.outer = calls) {expression operand inner : Parser Expr}

include closed

theorem operand_of_closed
    (whole : Mirrors offset left (Mirrors.Tree offset) expression calls.expression)
    (deeper : Mirrors offset left (Mirrors.Tree offset) inner (Descent.nested calls.signed)) :
    Mirrors offset left (Mirrors.Tree offset) (Parser.signed inner (Parser.suffixed expression))
      calls.signed := by
  have arguments : Mirrors offset left (Listed (Expr.shift offset)) (Parser.arguments expression)
      calls.arguments := by
    rw [← closed]
    exact Mirrors.arguments whole
  have fields : Mirrors offset left (Listed (Field.shift offset)) (Parser.fields expression)
      calls.fields := by
    rw [← closed]
    exact Mirrors.fields whole
  have primary : Mirrors offset left (Mirrors.Tree offset) (Parser.primary expression)
      calls.primary := by
    rw [← closed]
    exact Mirrors.primary whole arguments fields
  have suffixed : Mirrors offset left (Mirrors.Tree offset) (Parser.suffixed expression)
      calls.suffixed := by
    rw [← closed]
    exact Mirrors.suffixed primary arguments
  rw [← closed]
  exact Mirrors.signed deeper suffixed

theorem binary_of_closed
    (signed : Mirrors offset left (Mirrors.Tree offset) operand calls.signed) (least gap : Nat)
    (bound : least ≤ Precedence.sign) (near : Precedence.sign ≤ least + gap) :
    Mirrors offset left (Mirrors.Tree offset) (Parser.binary operand least)
      (calls.binary least) := by
  induction gap generalizing least with
  | zero =>
      rw [← closed]
      refine Mirrors.binary signed bound fun op strong => ?_
      have weak := op.precedence_lt_sign
      omega
  | succ gap ih =>
      rw [← closed]
      refine Mirrors.binary signed bound fun op strong => ?_
      exact ih _ op.precedence_lt_sign (by omega)

theorem conditional_of_closed
    (whole : Mirrors offset left (Mirrors.Tree offset) expression calls.expression)
    (signed : Mirrors offset left (Mirrors.Tree offset) operand calls.signed) :
    Mirrors offset left (Mirrors.Tree offset) (Parser.conditional operand expression)
      calls.conditional := by
  have chain := binary_of_closed closed signed Precedence.loosestBinary 10 (by decide) (by decide)
  rw [← closed]
  exact Mirrors.conditional chain whole

theorem level (left : Nat) :
    Mirrors offset left (Mirrors.Tree offset) (Parser.Level.withLeft left).expression
      calls.expression ∧
    Mirrors offset left (Mirrors.Tree offset) (Parser.Level.withLeft left).operand
      calls.signed := by
  induction left with
  | zero =>
      have whole : Mirrors offset 0 (Mirrors.Tree offset) (Parser.refuse .nestedTooDeeply)
          calls.expression := by
        rw [← closed]
        exact Mirrors.nested_zero _
      exact ⟨whole, operand_of_closed closed whole (Mirrors.nested_zero _)⟩
  | succ left ih =>
      obtain ⟨expression, operand⟩ := ih
      have whole : Mirrors offset (left + 1) (Mirrors.Tree offset)
          (Parser.conditional (Parser.Level.withLeft left).operand
            (Parser.Level.withLeft left).expression) calls.expression := by
        rw [← closed]
        exact (conditional_of_closed closed expression operand).nested
      exact ⟨whole, operand_of_closed closed whole operand.nested⟩

end Functions

/-- With so many levels left a call of the parser answers what the parser of a whole input with
these levels replies. -/
theorem complete :
    Mirrors offset left (Mirrors.Tree offset)
      (Parser.complete (Parser.expressionWithin left))
      (Descent.complete (Descent.Calls.within Descent.callDepth)) := by
  have closed := Descent.Calls.outer_eq_iff.mpr rfl
  refine (level closed left).1.bind fun tree => Mirrors.peek fun token => ?_
  cases token.kind.isEnd with
  | true => exact pure tree
  | false => exact unexpected _

theorem input : Mirrors offset Parser.nestingLimit (Mirrors.Tree offset) Parser.input
    (Descent.complete (Descent.Calls.within Descent.callDepth)) :=
  complete

end Mirrors
end ContractExpr
