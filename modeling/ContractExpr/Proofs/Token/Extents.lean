import ContractExpr.Proofs.Token.Openings

/-! # How far a token reaches

A token takes no more characters than the text has, and only the end of the text is read as the end
token.
-/

set_option autoImplicit false

namespace ContractExpr

open Text Token

/-! ## Escapes and string literals -/

namespace Text.Quoted

theorem readCodePoint_length_le (text : List Char) : (readCodePoint text).2 ≤ text.length := by
  unfold readCodePoint
  split
  · rename_i rest
    have digits : (rest.takeWhile Base.hexadecimal.isDigit).length ≤ rest.length :=
      (List.takeWhile_prefix _).length_le
    dsimp only
    split
    · rename_i behind closed
      have more := congrArg List.length closed
      rw [List.length_drop, List.length_cons] at more
      split <;> simp only [List.length_cons] <;> omega
    · simp only [List.length_cons]
      omega
  · exact Nat.zero_le _

theorem readEscape_length_le (text : List Char) : (readEscape text).2 ≤ text.length := by
  unfold readEscape
  split
  case h_7 rest => exact Nat.succ_le_succ (readCodePoint_length_le rest)
  all_goals simp

theorem readBody_length_le (text : List Char) : (readBody text).2 ≤ text.length := by
  induction size : text.length using Nat.strongRecOn generalizing text with
  | ind size ih =>
      subst size
      cases text with
      | nil => simp [readBody]
      | cons c rest =>
          rw [readBody]
          split
          · exact Nat.zero_le _
          split
          · simp
          split
          · have escaped := readEscape_length_le rest
            split <;> rename_i read <;> rw [read] at escaped
            · rename_i length
              have shorter : (rest.drop length).length < (c :: rest).length := by
                simp only [List.length_cons, List.length_drop]
                omega
              have behind := ih _ shorter (rest.drop length) rfl
              simp only [push, List.length_cons, List.length_drop] at behind ⊢
              omega
            · exact Nat.succ_le_succ escaped
          · have behind := ih _ (Nat.lt_succ_self _) rest rfl
            simp only [push, List.length_cons]
            omega

end Text.Quoted

namespace Lexeme

/-! ## Comments -/

theorem blockContent?_eq_some {text content : List Char}
    (found : blockContent? text = some content) :
    content ++ ['*', '/'] <+: text := by
  induction text generalizing content with
  | nil => cases found
  | cons c rest ih =>
      unfold blockContent? at found
      split at found
      · cases found
      · rename_i behind same
        rw [same]
        cases found
        exact ⟨behind, rfl⟩
      · rename_i same
        cases same
        obtain ⟨inner, foundInner, rfl⟩ := Option.map_eq_some_iff.mp found
        exact List.cons_prefix_cons.mpr ⟨rfl, ih foundInner⟩

theorem lineComment_length_le (rest : List Char) :
    (lineComment rest).length ≤ rest.length + 2 := by
  have content : ((rest.drop (if rest.head? = some ' ' then 1 else 0)).takeWhile
      (· != '\n')).length ≤ (rest.drop (if rest.head? = some ' ' then 1 else 0)).length :=
    (List.takeWhile_prefix _).length_le
  rw [List.length_drop] at content
  unfold lineComment
  cases rest with
  | nil => simp
  | cons c rest =>
      dsimp only [List.length_cons] at content ⊢
      split <;> rename_i gap <;> simp only [gap, if_true, if_false] at content ⊢ <;> omega

theorem blockComment_length_le (rest : List Char) :
    (blockComment rest).length ≤ rest.length + 2 := by
  unfold blockComment
  split
  · rename_i content found
    have inside := (blockContent?_eq_some found).length_le
    simp only [List.length_append, List.length_cons, List.length_nil] at inside ⊢
    omega
  · exact Nat.le_of_eq (Nat.add_comm _ _)

/-! ## Numbers and symbols -/

theorem readDigits_length_le (base : Base) (afterDigit : Bool) (text : List Char) :
    (readDigits base afterDigit text).2 ≤ text.length := by
  induction text generalizing afterDigit with
  | nil => simp [readDigits]
  | cons c rest ih =>
      rw [readDigits]
      split
      · exact Nat.succ_le_succ (ih false)
      split
      · exact Nat.succ_le_succ (ih true)
      · split <;> simp

theorem markedBase_length_le (text : List Char) : (markedBase text).2 ≤ text.length := by
  unfold markedBase
  split
  · split <;> simp
  · exact Nat.zero_le _

theorem numberLiteral_length_le (text : List Char) :
    (numberLiteral text).length ≤ text.length := by
  have marker := markedBase_length_le text
  have digits := readDigits_length_le (markedBase text).1 false (text.drop (markedBase text).2)
  rw [List.length_drop] at digits
  rw [numberLiteral_length]
  omega

theorem symbol_length_le (first : Char) (rest : List Char) :
    (symbol first rest).length ≤ rest.length + 1 := by
  unfold symbol
  split
  · rename_i mark found
    exact (longest?_begins found).length_le
  · exact Nat.succ_le_succ (Nat.zero_le _)

/-! ## All tokens -/

theorem read_length_le (text : List Char) : (read text).length ≤ text.length := by
  unfold read
  split
  · exact Nat.zero_le _
  · exact lineComment_length_le _
  · exact blockComment_length_le _
  · rename_i rest
    have body := Quoted.readBody_length_le rest
    unfold stringLiteral
    split <;> rename_i same <;> rw [same] at body <;> simp only [List.length_cons] <;> omega
  · split
    · exact numberLiteral_length_le _
    · split
      · exact (List.takeWhile_prefix _).length_le
      · exact symbol_length_le _ _

theorem isEnd_read_cons (first : Char) (rest : List Char) :
    (read (first :: rest)).kind.isEnd = false := by
  unfold read
  split
  · contradiction
  · rfl
  · unfold blockComment
    split <;> rfl
  · unfold stringLiteral
    split <;> rfl
  · split
    · exact (numberLiteral_kind _).2
    · split
      · exact (word_kind _).2
      · unfold symbol
        split <;> rfl

end Lexeme
end ContractExpr
