import ContractExpr.Text.CharClass

/-! # Classes of characters as ranges of code points -/

set_option autoImplicit false

namespace ContractExpr.Text

theorem isAlpha_iff (c : Char) :
    c.isAlpha = true ↔ 65 ≤ c.toNat ∧ c.toNat ≤ 90 ∨ 97 ≤ c.toNat ∧ c.toNat ≤ 122 := by
  change (decide ('A'.val ≤ c.val ∧ c.val ≤ 'Z'.val) ||
    decide ('a'.val ≤ c.val) && decide (c.val ≤ 'z'.val)) = true ↔ _
  simp [UInt32.le_iff_toNat_le]

theorem isUpper_iff (c : Char) : c.isUpper = true ↔ 65 ≤ c.toNat ∧ c.toNat ≤ 90 := by
  change decide ('A'.val ≤ c.val ∧ c.val ≤ 'Z'.val) = true ↔ _
  simp [UInt32.le_iff_toNat_le]

theorem isDigit_iff (c : Char) : c.isDigit = true ↔ 48 ≤ c.toNat ∧ c.toNat ≤ 57 :=
  Char.isDigit_iff_toNat

theorem isNameStart_iff (c : Char) :
    isNameStart c = true ↔
      65 ≤ c.toNat ∧ c.toNat ≤ 90 ∨ 97 ≤ c.toNat ∧ c.toNat ≤ 122 ∨ c.toNat = 95 := by
  simp [isNameStart, isAlpha_iff, ← Char.toNat_inj, or_assoc]

theorem isNamePart_iff (c : Char) :
    isNamePart c = true ↔
      48 ≤ c.toNat ∧ c.toNat ≤ 57 ∨ 65 ≤ c.toNat ∧ c.toNat ≤ 90 ∨
        97 ≤ c.toNat ∧ c.toNat ≤ 122 ∨ c.toNat = 95 := by
  simp only [isNamePart, Char.isAlphanum, Bool.or_eq_true, isAlpha_iff, isDigit_iff, beq_iff_eq,
    ← Char.toNat_inj]
  have underscore : '_'.toNat = 95 := rfl
  omega

theorem isNamePart_of_isNameStart {c : Char} (start : isNameStart c = true) :
    isNamePart c = true := by
  rw [isNameStart_iff] at start
  rw [isNamePart_iff]
  omega

theorem isNameStart_of_isName {text : List Char} (shape : isName text = true) :
    ∃ first rest, text = first :: rest ∧ isNameStart first = true := by
  cases text with
  | nil => cases shape
  | cons first rest =>
      rw [isName, Bool.and_eq_true] at shape
      exact ⟨first, rest, rfl, shape.1⟩

theorem isNamePart_of_isName {text : List Char} (shape : isName text = true) :
    ∀ c ∈ text, isNamePart c = true := by
  cases text with
  | nil => cases shape
  | cons first rest =>
      rw [isName, Bool.and_eq_true, List.all_eq_true] at shape
      exact List.forall_mem_cons.mpr ⟨isNamePart_of_isNameStart shape.1, shape.2⟩

theorem isBlank_of_isNamePart {c : Char} (part : isNamePart c = true) : isBlank c = false := by
  rw [isNamePart_iff] at part
  simp [isBlank, inRanges, blankRanges]
  omega

theorem isBlank_of_isDigit {c : Char} (digit : c.isDigit = true) : isBlank c = false :=
  isBlank_of_isNamePart (by simp [isNamePart, Char.isAlphanum, digit])

theorem isDigit_of_isNameStart {c : Char} (start : isNameStart c = true) : c.isDigit = false := by
  rw [isNameStart_iff] at start
  rw [Bool.eq_false_iff, ne_eq, isDigit_iff]
  omega

end ContractExpr.Text
