import ContractExpr.Proofs.Grammar
import ContractExpr.Proofs.Parser.Steps

/-! # Chains read by climbing

The chains of binary operators of one strength after the other, each inside those of the next looser
one, are what a single loop reads that takes any operator strong enough and reads behind it what
binds tighter.
-/

set_option autoImplicit false

namespace ContractExpr

open Token

namespace Parser

variable {α γ : Type}

/-! ## Where a loop stops -/

section Loop

variable {continues : Kind → Option γ} {extend : α → γ → Token → Parser α}

theorem extendRun_stops (noEnd : continues .endOfInput = none) {value result : α}
    {tokens : List Token} {nextId : Nat} {after : Cursor}
    (accepted : extendRun continues extend value tokens nextId = .accepted result after) :
    continues (frontKind after.rest) = none := by
  fun_induction extendRun continues extend value tokens nextId with
  | case1 value nextId =>
      cases accepted
      exact noEnd
  | case2 value token rest nextId stops =>
      cases accepted
      exact stops
  | case3 value token rest nextId found goesOn extended middle reply ih => exact ih accepted
  | case4 value token rest nextId found goesOn error middle reply => cases accepted

end Loop

/-! ## Climbing -/

def operatorFrom? (least : Nat) (kind : Kind) : Option BinaryOp :=
  kind.binaryOp?.filter fun op => decide (least ≤ op.precedence)

/-- One round of climbing: what stands behind an operator binds tighter than it. -/
def climbStep (operand : Parser Expr) (left : Expr) (op : BinaryOp) (token : Token) : Parser Expr :=
  chainStep (binary operand (op.precedence + 1)) left op token

def climb (operand : Parser Expr) (least : Nat) : Parser Expr := do
  let first ← operand
  extendWhile (operatorFrom? least) (climbStep operand) first

theorem operatorFrom?_eq_some {least : Nat} {kind : Kind} {op : BinaryOp} :
    operatorFrom? least kind = some op ↔ kind.binaryOp? = some op ∧ least ≤ op.precedence := by
  simp [operatorFrom?, Option.filter_eq_some_iff]

theorem operatorFrom?_eq_none {least : Nat} {kind : Kind} :
    operatorFrom? least kind = none ↔
      ∀ op, kind.binaryOp? = some op → op.precedence < least := by
  simp [operatorFrom?, Option.filter_eq_none_iff]

theorem operatorOf?_eq_none {strength : Nat} {kind : Kind} :
    operatorOf? strength kind = none ↔
      ∀ op, kind.binaryOp? = some op → op.precedence ≠ strength := by
  simp [operatorOf?, Option.filter_eq_none_iff]

theorem accepted_chainStep {operand : Parser Expr} {left extended : Expr} {op : BinaryOp}
    {token : Token} {cursor after : Cursor}
    (accepted : (chainStep operand left op token).run cursor = .accepted extended after) :
    ∃ right middle, operand.run cursor = .accepted right middle ∧ after.rest = middle.rest := by
  obtain ⟨right, middle, begun, accepted⟩ := accepted_bind accepted
  cases accepted
  exact ⟨right, middle, begun, rfl⟩

theorem operatorOf?_of_writes {kind : Kind} {op : BinaryOp} (writes : kind.binaryOp? = some op) :
    operatorOf? op.precedence kind = some op := by
  simp [operatorOf?, writes]

theorem noTighter {kind : Kind} {op : BinaryOp} (writes : kind.binaryOp? = some op) :
    operatorFrom? (op.precedence + 1) kind = none := by
  apply operatorFrom?_eq_none.mpr
  intro other writesOther
  rw [writes] at writesOther
  cases writesOther
  exact Nat.lt_succ_self _

section Climb

variable {operand : Parser Expr} {least : Nat}

/-- A climb goes on with the looser operators where the climb over the tighter ones stops. -/
theorem climb_loop
    (stops : ∀ cursor value after, (binary operand (least + 1)).run cursor = .accepted value after →
      operatorFrom? (least + 1) (frontKind after.rest) = none)
    (value : Expr) (tokens : List Token) (nextId : Nat) :
    extendRun (operatorFrom? least) (climbStep operand) value tokens nextId =
      match extendRun (operatorFrom? (least + 1)) (climbStep operand) value tokens nextId with
      | .accepted tighter after =>
        extendRun (operatorOf? least) (chainStep (binary operand (least + 1))) tighter after.rest
          after.nextId
      | .refused error after => .refused error after := by
  fun_induction extendRun (operatorFrom? least) (climbStep operand) value tokens nextId with
  | case1 value nextId =>
      have looser : operatorOf? least (frontKind []) = Option.none := rfl
      rw [extendRun_of_none (by rfl)]
      simp only [extendRun_of_none looser]
  | case2 value token rest nextId none =>
      rw [operatorFrom?_eq_none] at none
      have tighter : operatorFrom? (least + 1) (frontKind (token :: rest)) = Option.none :=
        operatorFrom?_eq_none.mpr fun op writes => Nat.lt_succ_of_lt (none op writes)
      have looser : operatorOf? least (frontKind (token :: rest)) = Option.none :=
        operatorOf?_eq_none.mpr fun op writes => Nat.ne_of_lt (none op writes)
      rw [extendRun_of_none tighter]
      simp only [extendRun_of_none looser]
  | case3 value token rest nextId op goesOn extended after reply ih =>
      obtain ⟨writes, strong⟩ := operatorFrom?_eq_some.mp goesOn
      rcases Nat.lt_or_eq_of_le strong with tighter | same
      · rw [extendRun_of_some (operatorFrom?_eq_some.mpr ⟨writes, tighter⟩) reply]
        exact ih
      · subst same
        have alone : operatorFrom? (op.precedence + 1) (frontKind (token :: rest)) = Option.none :=
          noTighter writes
        have chained : (chainStep (binary operand (op.precedence + 1)) value op token).run
            ⟨rest, nextId⟩ = .accepted extended after := reply
        rw [extendRun_of_none alone]
        simp only
        rw [extendRun_of_some (operatorOf?_of_writes writes) chained, ih]
        obtain ⟨right, middle, begun, behind⟩ := accepted_chainStep reply
        rw [extendRun_of_none (behind ▸ stops _ _ _ begun)]
  | case4 value token rest nextId op goesOn error after reply =>
      obtain ⟨writes, strong⟩ := operatorFrom?_eq_some.mp goesOn
      rcases Nat.lt_or_eq_of_le strong with tighter | same
      · rw [extendRun_of_refused (operatorFrom?_eq_some.mpr ⟨writes, tighter⟩) reply]
      · subst same
        have alone : operatorFrom? (op.precedence + 1) (frontKind (token :: rest)) = Option.none :=
          noTighter writes
        have chained : (chainStep (binary operand (op.precedence + 1)) value op token).run
            ⟨rest, nextId⟩ = .refused error after := reply
        rw [extendRun_of_none alone]
        simp only
        rw [extendRun_of_refused (operatorOf?_of_writes writes) chained]

theorem climb_stops {cursor after : Cursor} {value : Expr}
    (accepted : (climb operand least).run cursor = .accepted value after) :
    operatorFrom? least (frontKind after.rest) = none := by
  obtain ⟨first, middle, _, looped⟩ := accepted_bind accepted
  exact extendRun_stops rfl looped

/-- Chains inside chains are read by climbing. -/
theorem binary_run_eq_climb (operand : Parser Expr) {least : Nat}
    (bound : least ≤ Precedence.sign) (cursor : Cursor) :
    (binary operand least).run cursor = (climb operand least).run cursor := by
  -- from the tightest operators down, since the chains of each strength hold those of the next
  induction gap : Precedence.sign - least generalizing least cursor with
  | zero =>
      obtain rfl : least = Precedence.sign := by omega
      have never (kind : Kind) : operatorFrom? Precedence.sign kind = none :=
        operatorFrom?_eq_none.mpr fun op _ => op.precedence_lt_sign
      rw [binary_sign, climb, run_bind]
      cases reply : operand.run cursor with
      | accepted first after => exact (extendRun_of_none (never _)).symm
      | refused error after => rfl
  | succ gap ih =>
      have below : least < Precedence.sign := by omega
      have next : least + 1 ≤ Precedence.sign := below
      have inner := fun cursor => ih next cursor (by omega)
      have stops : ∀ cursor value after,
          (binary operand (least + 1)).run cursor = .accepted value after →
          operatorFrom? (least + 1) (frontKind after.rest) = none := by
        intro cursor value after accepted
        rw [inner] at accepted
        exact climb_stops accepted
      rw [binary_of_lt below, leftChain_eq, run_bind, inner, climb, climb, run_bind, run_bind]
      cases operand.run cursor with
      | refused error after => rfl
      | accepted first after =>
          simp only [extendWhile]
          rw [climb_loop stops]
          cases extendRun (operatorFrom? (least + 1)) (climbStep operand) first after.rest
            after.nextId <;> rfl

end Climb

end Parser
end ContractExpr
