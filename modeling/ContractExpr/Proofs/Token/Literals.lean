import ContractExpr.Proofs.Text.Quoted
import ContractExpr.Proofs.Token.Spelling

/-! # Literals read back

The written form of a number is read as its digits, and the literal of a text as that text.
-/

set_option autoImplicit false

namespace ContractExpr

open Text Token

/-! ## Numbers -/

namespace Base

theorem digitValue?_eq_some {c : Char} {value : Nat} (found : digitValue? c = some value) :
    48 ≤ c.toNat ∧ c.toNat ≤ 57 ∧ value < 10 ∨
      97 ≤ c.toNat ∧ c.toNat ≤ 102 ∧ 10 ≤ value ∨ 65 ≤ c.toNat ∧ c.toNat ≤ 70 ∧ 10 ≤ value := by
  have zero : '0'.toNat = 48 := rfl
  unfold digitValue? at found
  split at found
  · rename_i decimal
    rw [isDigit_iff] at decimal
    cases found
    omega
  · simp only [Char.le_def, UInt32.le_iff_toNat_le, Char.toNat_val, Char.reduceToNat] at found
    split at found
    · cases found
      omega
    · split at found
      · cases found
        omega
      · cases found

theorem isNamePart_of_isDigit {base : Base} {c : Char} (digit : base.isDigit c = true) :
    isNamePart c = true := by
  obtain ⟨value, found⟩ := Option.isSome_iff_exists.mp digit
  have ranges := digitValue?_eq_some (Option.filter_eq_some_iff.mp found).1
  rw [isNamePart_iff]
  omega

theorem isDigit_of_isDigit_decimal {c : Char} (digit : decimal.isDigit c = true) :
    c.isDigit = true := by
  obtain ⟨value, found⟩ := Option.isSome_iff_exists.mp digit
  obtain ⟨found, below⟩ := Option.filter_eq_some_iff.mp found
  have ranges := digitValue?_eq_some found
  have small : value < 10 := of_decide_eq_true below
  rw [isDigit_iff]
  omega

theorem not_isDigit_underscore (base : Base) : base.isDigit '_' = false := by
  cases base <;> decide

theorem letter?_ne_toLower {c : Char} (noLetter : c.isAlpha = false) (base : Base) :
    base.letter? ≠ some c.toLower := by
  have notUpper : ¬('A'.val ≤ c.val ∧ c.val ≤ 'Z'.val) :=
    of_decide_eq_false (Bool.or_eq_false_iff.mp noLetter).1
  have same : c.toLower = c := dif_neg notUpper
  rw [same]
  intro marks
  cases base <;> cases marks <;> simp at noLetter

end Base

theorem isNamePart_of_mem_number (number : Number) : ∀ c ∈ number.chars, isNamePart c = true := by
  rw [Number.chars, List.forall_mem_append]
  constructor
  · have marker : number.base.marker.all isNamePart = true := by cases number.base <;> decide
    exact List.all_eq_true.mp marker
  · intro c member
    exact Base.isNamePart_of_isDigit (Base.isDigit_of_mem_digits _ _ c member)

namespace Lexeme

/-- Digits with no letter behind them are read whole. -/
theorem readDigits_append {base : Base} {digits rest : List Char} {afterDigit : Bool}
    (each : ∀ c ∈ digits, base.isDigit c = true) (some : digits ≠ [] ∨ afterDigit = true)
    (ends : EndsWord rest) :
    readDigits base afterDigit (digits ++ rest) = (.ok digits, digits.length) := by
  induction digits generalizing afterDigit with
  | nil =>
      have found : afterDigit = true := by simpa using some
      subst found
      cases rest with
      | nil => rfl
      | cons c rest =>
          rw [endsWord_cons] at ends
          have noDigit : base.isDigit c = false := by
            apply Bool.eq_false_iff.mpr
            intro digit
            simp [Base.isNamePart_of_isDigit digit] at ends
          have separate := ends
          rw [isNamePart, Bool.or_eq_false_iff, beq_eq_false_iff_ne] at separate
          simp [readDigits, noDigit, separate]
  | cons c digits ih =>
      obtain ⟨digit, others⟩ := List.forall_mem_cons.mp each
      have noSeparator : c ≠ '_' := by
        rintro rfl
        simp [base.not_isDigit_underscore] at digit
      rw [List.cons_append, readDigits, if_neg (by simp [noSeparator]), if_pos digit,
        ih others (Or.inr rfl)]
      rfl

theorem markedBase_of_noLetter {text : List Char}
    (noLetter : ∀ c, text.tail.head? = some c → c.isAlpha = false) :
    markedBase text = (.decimal, 0) := by
  unfold markedBase
  split
  · rename_i letter rest
    have unmarked : Base.all.find? (fun base => base.letter? == some letter.toLower) = none := by
      rw [List.find?_eq_none]
      intro base _
      simpa using Base.letter?_ne_toLower (noLetter letter rfl) base
    rw [unmarked]
  · rfl

theorem isAlpha_of_endsWord {c : Char} {rest : List Char} (ends : EndsWord rest)
    (head : rest.head? = some c) : c.isAlpha = false := by
  have noPart := ends c head
  rw [isNamePart, Char.isAlphanum, Bool.or_eq_false_iff, Bool.or_eq_false_iff] at noPart
  exact noPart.1.1

theorem markedBase_chars (number : Number) {rest : List Char} (ends : EndsWord rest) :
    markedBase (number.chars ++ rest) = (number.base, number.base.marker.length) := by
  obtain ⟨base, value⟩ := number
  cases base with
  | binary | octal | hexadecimal => rfl
  | decimal =>
      apply markedBase_of_noLetter
      intro c head
      have chars : (Number.mk .decimal value).chars = Base.decimal.digits value := rfl
      rw [chars] at head
      cases digits : Base.decimal.digits value with
      | nil => exact absurd digits (Base.decimal.digits_ne_nil value)
      | cons first others =>
          rw [digits, List.cons_append, List.tail_cons, List.head?_append] at head
          cases others with
          | nil => exact isAlpha_of_endsWord ends head
          | cons second others =>
              have same : second = c := by simpa using head
              have digit : Base.decimal.isDigit c = true := by
                apply Base.decimal.isDigit_of_mem_digits value
                simp [digits, same]
              have decimal := (isDigit_iff c).mp (Base.isDigit_of_isDigit_decimal digit)
              rw [Bool.eq_false_iff, ne_eq, isAlpha_iff]
              omega

theorem chars_begins (number : Number) :
    ∃ first rest, number.chars = first :: rest ∧ first.isDigit = true := by
  obtain ⟨base, value⟩ := number
  cases base with
  | binary | octal | hexadecimal => exact ⟨'0', _, rfl, rfl⟩
  | decimal =>
      have chars : (Number.mk .decimal value).chars = Base.decimal.digits value := rfl
      rw [chars]
      have each := Base.decimal.isDigit_of_mem_digits value
      cases digits : Base.decimal.digits value with
      | nil => exact absurd digits (Base.decimal.digits_ne_nil value)
      | cons first others =>
          rw [digits] at each
          have digit := each first List.mem_cons_self
          exact ⟨first, others, rfl, Base.isDigit_of_isDigit_decimal digit⟩

theorem read_number (number : Number) {rest : List Char} (ends : EndsWord rest) :
    read (number.chars ++ rest) =
      ⟨.number number.base (String.ofList number.digits), number.chars.length⟩ := by
  have taken : readDigits number.base false (number.digits ++ rest) =
      (.ok number.digits, number.digits.length) :=
    readDigits_append (number.base.isDigit_of_mem_digits number.value)
      (Or.inl (number.base.digits_ne_nil number.value)) ends
  have behind : (number.chars ++ rest).drop number.base.marker.length = number.digits ++ rest := by
    rw [Number.chars, List.append_assoc, List.drop_left]
  have literal : numberLiteral (number.chars ++ rest) =
      ⟨.number number.base (String.ofList number.digits), number.chars.length⟩ := by
    unfold numberLiteral
    rw [markedBase_chars number ends]
    dsimp only
    rw [behind, taken]
    simp [Number.chars]
  obtain ⟨first, tail, chars, digit⟩ := chars_begins number
  rw [chars, List.cons_append] at literal ⊢
  rw [read_of_isDigit _ digit, literal]

end Lexeme

theorem kindsOf_number (number : Number) {rest : List Char} (ends : EndsWord rest) :
    kindsOf (number.chars ++ rest) =
      .number number.base (String.ofList number.digits) :: kindsOf rest := by
  have read := Lexeme.read_number number ends
  obtain ⟨first, tail, chars, digit⟩ := Lexeme.chars_begins number
  rw [chars, List.cons_append] at read ⊢
  rw [kindsOf_lexeme (isBlank_of_isDigit digit) read rfl, ← List.cons_append, List.drop_left]

theorem ofDigits?_digits (number : Number) :
    Number.ofDigits? number.base (String.ofList number.digits).toList = some number := by
  have digits : number.digits = number.base.digits number.value := rfl
  rw [String.toList_ofList, Number.ofDigits?, digits, if_neg (by simp [Base.digits_ne_nil]),
    Base.valueFrom?_digits]
  rfl

/-! ## Strings -/

/-- The literal of a text is read as that text, whatever stands behind it. -/
theorem Lexeme.read_write (content : String) (rest : List Char) :
    read (Quoted.write content.toList ++ rest) =
      ⟨.string content, (Quoted.write content.toList).length⟩ := by
  have text : Quoted.write content.toList ++ rest =
      '"' :: (content.toList.flatMap Quoted.escape ++ '"' :: rest) := by
    simp [Quoted.write]
  rw [text, read, stringLiteral, Quoted.readBody_write]
  simp [Quoted.write]
  omega

theorem kindsOf_string (content : String) (rest : List Char) :
    kindsOf (Quoted.write content.toList ++ rest) = .string content :: kindsOf rest := by
  have read := Lexeme.read_write content rest
  obtain ⟨tail, written⟩ : ∃ tail, Quoted.write content.toList = '"' :: tail := ⟨_, rfl⟩
  rw [written, List.cons_append] at read ⊢
  rw [kindsOf_lexeme rfl read rfl, ← List.cons_append, List.drop_left]

end ContractExpr
