import ContractExpr.Number
import ContractExpr.Token.Lexeme

/-! # Digits of a number

The digits written for a value are digits of its base and denote the value again.
-/

set_option autoImplicit false

namespace ContractExpr.Base

theorem one_lt_radix (base : Base) : 1 < base.radix := by
  cases base <;> decide

theorem radix_le_sixteen (base : Base) : base.radix ≤ 16 := by
  cases base <;> decide

theorem digitValue?_digitChar {value : Nat} (below : value < 16) :
    digitValue? value.digitChar = some value := by
  have all : ∀ value < 16, digitValue? (Nat.digitChar value) = some value := by decide
  exact all value below

theorem digit?_digitChar {base : Base} {value : Nat} (below : value < base.radix) :
    base.digit? value.digitChar = some value := by
  have small : value < 16 := Nat.lt_of_lt_of_le below base.radix_le_sixteen
  simp [digit?, digitValue?_digitChar small, below]

theorem valueFrom?_append (base : Base) (value : Nat) (front back : List Char) :
    base.valueFrom? value (front ++ back) =
      (base.valueFrom? value front).bind fun read => base.valueFrom? read back := by
  induction front generalizing value with
  | nil => rfl
  | cons c rest ih =>
      simp only [List.cons_append, valueFrom?, Option.bind_assoc]
      exact Option.bind_congr fun digit _ => ih _

theorem valueFrom?_digits (base : Base) (value : Nat) :
    base.valueFrom? 0 (base.digits value) = some value := by
  -- by the value, whose last digit is the rest of a division by the radix
  induction value using Nat.strongRecOn with
  | ind value ih =>
      by_cases single : value < base.radix
      · simp [digits, Nat.toDigits_of_lt_base single, valueFrom?, digit?_digitChar single]
      · have more : base.radix ≤ value := Nat.le_of_not_lt single
        have positive : 0 < base.radix := Nat.lt_trans Nat.zero_lt_one base.one_lt_radix
        have shorter : value / base.radix < value :=
          Nat.div_lt_self (Nat.lt_of_lt_of_le positive more) base.one_lt_radix
        have last : value % base.radix < base.radix := Nat.mod_lt _ positive
        have front := ih _ shorter
        rw [digits] at front ⊢
        rw [Nat.toDigits_of_base_le base.one_lt_radix more, valueFrom?_append, front]
        simp [valueFrom?, digit?_digitChar last, Nat.div_add_mod']

theorem isDigit_of_valueFrom? {base : Base} {start value : Nat} {text : List Char}
    (read : base.valueFrom? start text = some value) : ∀ c ∈ text, base.isDigit c = true := by
  induction text generalizing start with
  | nil => simp
  | cons first rest ih =>
      rw [valueFrom?] at read
      obtain ⟨digit, found, further⟩ := Option.bind_eq_some_iff.mp read
      exact List.forall_mem_cons.mpr ⟨by simp [isDigit, found], ih further⟩

theorem isDigit_of_mem_digits (base : Base) (value : Nat) :
    ∀ c ∈ base.digits value, base.isDigit c = true :=
  isDigit_of_valueFrom? (base.valueFrom?_digits value)

theorem digits_ne_nil (base : Base) (value : Nat) : base.digits value ≠ [] :=
  Nat.toDigits_ne_nil

end ContractExpr.Base
