import ContractExpr.Proofs.Session.Calls

/-! # Bounded recursion

However long a source is and however often a parser is called on it, the calls that are active at
once stay below a bound that only the limit on levels decides. Calls for the operand behind an
operator are bounded by the strengths of operators.
-/

set_option autoImplicit false

namespace ContractExpr

namespace Descent

namespace Calls

/-- The functions that read operators, so many calls of them active before the one below. -/
def climbing (calls : Calls) (below : Nat → Descent Expr) : Nat → Nat → Descent Expr
  | 0 => below
  | depth + 1 => Descent.binary { calls with binary := calls.climbing below depth }

theorem climbing_congr (calls : Calls) (below other : Nat → Descent Expr) {depth least : Nat}
    (enough : Precedence.sign - least < depth) :
    calls.climbing below depth least = calls.climbing other depth least := by
  induction depth generalizing least with
  | zero => exact absurd enough (Nat.not_lt_zero _)
  | succ depth ih =>
      refine Congruence.eq.binary rfl fun op strong => ?_
      have weak := op.precedence_lt_sign
      exact ih (by omega)

theorem climbing_of_outer_eq {calls : Calls} (closed : calls.outer = calls) (depth : Nat) :
    calls.climbing calls.binary depth = calls.binary := by
  induction depth with
  | zero => rfl
  | succ depth ih =>
      rw [climbing, ih]
      exact congrArg binary closed

end Calls

/-- The limit on levels bounds the calls that are active at once: with so many calls the functions
do the same whatever stands below them, they are the only ones that call themselves, and no call of
a parser runs out of them but answers what the parser without such a bound replies. Behind an
operator the strengths that are left bound the calls. -/
theorem calls_bounded :
    (∀ (bottom : Calls) (more : Nat), bottom.above (callDepth + more) = .within callDepth) ∧
    (∀ calls : Calls, calls.outer = calls ↔ calls = .within callDepth) ∧
    (∀ (source : String) (count : Nat),
      let session := (Session.ofSource source).after count
      session.answer ≠ .error .exhausted ∧
        session.answer =
          (session.reply.toExcept.map (Expr.shift (session.nextId - 1))).mapError Stop.failed) ∧
    ∀ (below : Nat → Descent Expr) (least : Nat),
      (Calls.within callDepth).climbing below (Precedence.sign - least + 1) least =
        (Calls.within callDepth).binary least := by
  refine ⟨Calls.above_callDepth, fun calls => Calls.outer_eq_iff, fun source count => ?_,
    fun below least => ?_⟩
  · have idle := (Session.idle_ofTokens (Cursor.ofSource_endsOnce source)).after count
    exact ⟨idle.not_exhausted, idle.answer_eq⟩
  · have closed : (Calls.within callDepth).outer = .within callDepth := Calls.outer_eq_iff.mpr rfl
    rw [Calls.climbing_congr _ below (Calls.within callDepth).binary (Nat.lt_succ_self _),
      Calls.climbing_of_outer_eq closed]

end Descent
end ContractExpr
