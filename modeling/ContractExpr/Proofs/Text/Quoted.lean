import ContractExpr.Proofs.Token.Digits

/-! # String literals read back -/

set_option autoImplicit false

namespace ContractExpr.Text.Quoted

theorem push_ok (c : Char) (length : Nat) (content : List Char) (read : Nat) :
    push c length (.ok content, read) = (.ok (c :: content), length + read) := rfl

theorem character?_digits {c : Char} (short : (Base.hexadecimal.digits c.toNat).length ≤ 6) :
    character? (Base.hexadecimal.digits c.toNat) = some c := by
  have valid : c.toNat.isValidChar := c.valid
  rw [character?, if_pos short, if_neg (by simp [Base.digits_ne_nil]), Base.valueFrom?_digits]
  simp [scalar?, valid]

theorem length_digits_of_isControl {c : Char} (control : isControl c = true) :
    (Base.hexadecimal.digits c.toNat).length ≤ 6 := by
  have small : c.toNat < 16 ^ 6 := by
    simp [isControl, inRanges] at control
    omega
  exact (Nat.length_toDigits_le_iff (by decide) (by decide)).mpr small

theorem readCodePoint_digits {c : Char} (rest : List Char) (control : isControl c = true) :
    readCodePoint ('\x7b' :: (Base.hexadecimal.digits c.toNat ++ '\x7d' :: rest)) =
      (.ok c, (Base.hexadecimal.digits c.toNat).length + 2) := by
  have taken : (Base.hexadecimal.digits c.toNat ++ '\x7d' :: rest).takeWhile
      Base.hexadecimal.isDigit = Base.hexadecimal.digits c.toNat := by
    rw [List.takeWhile_append_of_pos (Base.hexadecimal.isDigit_of_mem_digits c.toNat),
      List.takeWhile_cons_of_neg (by decide), List.append_nil]
  rw [readCodePoint, taken, List.drop_left]
  simp only [character?_digits (length_digits_of_isControl control)]

/-- How a character is written: with one letter behind a backslash, with its code, or as it is. -/
theorem escape_cases (c : Char) :
    (∃ letter, escape c = ['\\', letter] ∧ ∀ rest, readEscape (letter :: rest) = (.ok c, 1)) ∨
      (isControl c = true ∧
        escape c = ['\\', 'u', '\x7b'] ++ Base.hexadecimal.digits c.toNat ++ ['\x7d']) ∨
      (c ≠ '\n' ∧ c ≠ '"' ∧ c ≠ '\\' ∧ escape c = [c]) := by
  unfold escape
  split
  · exact Or.inl ⟨'"', rfl, by simp_all [readEscape]⟩
  split
  · exact Or.inl ⟨'\\', rfl, by simp_all [readEscape]⟩
  split
  · exact Or.inl ⟨'n', rfl, by simp_all [readEscape]⟩
  split
  · exact Or.inl ⟨'t', rfl, by simp_all [readEscape]⟩
  split
  · exact Or.inl ⟨'r', rfl, by simp_all [readEscape]⟩
  split
  · exact Or.inr (Or.inl ⟨by assumption, rfl⟩)
  · exact Or.inr (Or.inr ⟨by assumption, by assumption, by assumption, rfl⟩)

theorem readBody_backslash {rest : List Char} {meant : Char} {length : Nat}
    (read : readEscape rest = (.ok meant, length)) :
    readBody ('\\' :: rest) = push meant (length + 1) (readBody (rest.drop length)) := by
  rw [readBody, if_neg (by decide), if_neg (by decide), if_pos rfl, read]

/-- What is written for a character is read as that character. -/
theorem readBody_escape (c : Char) (rest : List Char) :
    readBody (escape c ++ rest) = push c (escape c).length (readBody rest) := by
  rcases escape_cases c with ⟨letter, written, read⟩ | ⟨control, written⟩ |
    ⟨noBreak, noQuote, noBackslash, written⟩
  · rw [written]
    exact readBody_backslash (read rest)
  · have read : readEscape ('u' :: '\x7b' ::
        (Base.hexadecimal.digits c.toNat ++ '\x7d' :: rest)) =
          (.ok c, (Base.hexadecimal.digits c.toNat).length + 3) := by
      rw [readEscape, readCodePoint_digits rest control]
    have text : escape c ++ rest =
        '\\' :: 'u' :: '\x7b' :: (Base.hexadecimal.digits c.toNat ++ '\x7d' :: rest) := by
      simp [written]
    rw [text, readBody_backslash read, written]
    simp [List.drop_append, List.drop_eq_nil_of_le]
  · rw [written, List.singleton_append, readBody, if_neg noBreak, if_neg noQuote,
      if_neg noBackslash]
    rfl

theorem readBody_write (content rest : List Char) :
    readBody (content.flatMap escape ++ '"' :: rest) =
      (.ok content, (content.flatMap escape).length + 1) := by
  induction content with
  | nil => simp [readBody]
  | cons c content ih =>
      rw [List.flatMap_cons, List.append_assoc, readBody_escape, ih, push_ok, List.length_append,
        Nat.add_assoc]

end ContractExpr.Text.Quoted
