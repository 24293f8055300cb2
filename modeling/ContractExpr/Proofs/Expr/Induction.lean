import ContractExpr.Expr.Node

/-! # Induction on trees

The principle gives a hypothesis for every expression in a list and takes two negations in one
step, since they are written as one token.
-/

set_option autoImplicit false

namespace ContractExpr.Expr

def isNot : Expr → Bool
  | .unary .not _ _ => true
  | _ => false

theorem isNot_eq_true {expr : Expr} (negated : expr.isNot = true) :
    ∃ operand info, expr = .unary .not operand info := by
  unfold isNot at negated
  split at negated
  · exact ⟨_, _, rfl⟩
  · cases negated

theorem sizeOf_initializer_lt {field : Field Expr} {fields : List (Field Expr)}
    (member : field ∈ fields) : sizeOf field.initializer < sizeOf fields := by
  have inList := List.sizeOf_lt_of_mem member
  obtain ⟨name, initializer, info⟩ := field
  simp only [Field.mk.sizeOf_spec] at inList ⊢
  omega

theorem induct {motive : Expr → Prop}
    (number : ∀ value info, motive (.number value info))
    (boolean : ∀ value info, motive (.boolean value info))
    (null : ∀ info, motive (.null info))
    (string : ∀ content info, motive (.string content info))
    (identifier : ∀ name info, motive (.identifier name info))
    (twoNots : ∀ operand near far, motive operand →
      motive (.unary .not (.unary .not operand near) far))
    (unary : ∀ op operand info, (op = .not → operand.isNot = false) → motive operand →
      motive (.unary op operand info))
    (binary : ∀ op left right info, motive left → motive right →
      motive (.binary op left right info))
    (conditional : ∀ condition consequent alternative info, motive condition →
      motive consequent → motive alternative →
      motive (.conditional condition consequent alternative info))
    (initOf : ∀ contract arguments info, (∀ argument ∈ arguments, motive argument) →
      motive (.initOf contract arguments info))
    (methodCall : ∀ receiver method arguments info, motive receiver →
      (∀ argument ∈ arguments, motive argument) →
      motive (.methodCall receiver method arguments info))
    (fieldAccess : ∀ aggregate field info, motive aggregate →
      motive (.fieldAccess aggregate field info))
    (call : ∀ function arguments info, (∀ argument ∈ arguments, motive argument) →
      motive (.call function arguments info))
    (structInstance : ∀ type fields info, (∀ field ∈ fields, motive field.initializer) →
      motive (.structInstance type fields info)) (expr : Expr) : motive expr := by
  induction size : sizeOf expr using Nat.strongRecOn generalizing expr with
  | ind size ih =>
      subst size
      have smaller : ∀ part : Expr, sizeOf part < sizeOf expr → motive part :=
        fun part below => ih _ below part rfl
      cases expr with
      | number value info => exact number value info
      | boolean value info => exact boolean value info
      | null info => exact null info
      | string content info => exact string content info
      | identifier name info => exact identifier name info
      | unary op operand info =>
          by_cases twice : op = .not ∧ operand.isNot = true
          · obtain ⟨rfl, negated⟩ := twice
            obtain ⟨inner, near, rfl⟩ := isNot_eq_true negated
            exact twoNots inner near info (smaller inner (by simp; omega))
          · have single : op = .not → operand.isNot = false := by
              intro isNegation
              exact Bool.eq_false_iff.mpr fun negated => twice ⟨isNegation, negated⟩
            exact unary op operand info single (smaller operand (by simp; omega))
      | binary op left right info =>
          exact binary op left right info (smaller left (by simp; omega))
            (smaller right (by simp; omega))
      | conditional condition consequent alternative info =>
          exact conditional condition consequent alternative info
            (smaller condition (by simp; omega)) (smaller consequent (by simp; omega))
            (smaller alternative (by simp; omega))
      | initOf contract arguments info =>
          refine initOf contract arguments info fun argument member => smaller argument ?_
          have inList := List.sizeOf_lt_of_mem member
          simp; omega
      | methodCall receiver method arguments info =>
          refine methodCall receiver method arguments info (smaller receiver (by simp; omega))
            fun argument member => smaller argument ?_
          have inList := List.sizeOf_lt_of_mem member
          simp; omega
      | fieldAccess aggregate field info =>
          exact fieldAccess aggregate field info (smaller aggregate (by simp; omega))
      | call function arguments info =>
          refine call function arguments info fun argument member => smaller argument ?_
          have inList := List.sizeOf_lt_of_mem member
          simp; omega
      | structInstance type fields info =>
          refine structInstance type fields info fun field member => smaller field.initializer ?_
          have inList := sizeOf_initializer_lt member
          simp; omega

end ContractExpr.Expr
