import ContractExpr.Proofs.Text.Quoted

/-! # The items of a string literal

What may stand between the quotes of a literal, written as a grammar: characters that stand for
themselves, and escapes. The reader takes exactly these, up to the first quote behind them, and
gives the characters they denote.
-/

set_option autoImplicit false

namespace ContractExpr.Text.Quoted

def letters : List (Char × Char) :=
  [('n', '\n'), ('t', '\t'), ('r', '\r'), ('\\', '\\'), ('"', '"')]

/-- An item of a literal and the character that it denotes. -/
inductive Item : List Char → Char → Prop where
  | plain {c : Char} (noBreak : c ≠ '\n') (noQuote : c ≠ '"') (noBackslash : c ≠ '\\') : Item [c] c
  | letter {letter c : Char} (means : (letter, c) ∈ letters) : Item ['\\', letter] c
  | code {digits : List Char} {c : Char} (nonempty : digits ≠ []) (short : digits.length ≤ 6)
      (means : Base.hexadecimal.valueFrom? 0 digits = some c.toNat) :
      Item ('\\' :: 'u' :: '\x7b' :: (digits ++ ['\x7d'])) c

inductive Items : List Char → List Char → Prop where
  | nil : Items [] []
  | cons {written rest content : List Char} {c : Char} (item : Item written c)
      (items : Items rest content) : Items (written ++ rest) (c :: content)

/-! ## Escapes -/

theorem scalar?_eq_some {code : Nat} {c : Char} : scalar? code = some c ↔ code = c.toNat := by
  unfold scalar?
  split
  · rename_i valid
    have exact : (Char.ofNat code).toNat = code := by
      rw [Char.ofNat, dif_pos valid]
      rfl
    rw [Option.some.injEq]
    constructor
    · rintro rfl
      exact exact.symm
    · rintro rfl
      exact Char.ofNat_toNat c
  · rename_i invalid
    simp only [reduceCtorEq, false_iff]
    rintro rfl
    exact invalid c.valid

theorem character?_eq_some {digits : List Char} {c : Char} :
    character? digits = some c ↔ digits ≠ [] ∧ digits.length ≤ 6 ∧
      Base.hexadecimal.valueFrom? 0 digits = some c.toNat := by
  unfold character?
  split
  · rename_i short
    cases digits with
    | nil => simp
    | cons first rest =>
        simp [Option.bind_eq_some_iff, scalar?_eq_some, short, -List.length_cons]
  · rename_i long
    simp [long]

theorem item_of_readEscape {text : List Char} {c : Char} {length : Nat}
    (read : readEscape text = (.ok c, length)) :
    ∃ written rest, text = written ++ rest ∧ written.length = length ∧
      Item ('\\' :: written) c := by
  unfold readEscape at read
  split at read
  case h_7 rest =>
    generalize point : readCodePoint rest = found at read
    obtain ⟨outcome, taken⟩ := found
    cases read
    unfold readCodePoint at point
    split at point
    · rename_i behind
      dsimp only at point
      split at point
      · rename_i further closed
        split at point
        · rename_i meant named
          cases point
          obtain ⟨nonempty, short, value⟩ := character?_eq_some.mp named
          have whole := List.prefix_iff_eq_append.mp
            (List.takeWhile_prefix (l := behind) Base.hexadecimal.isDigit)
          rw [closed] at whole
          exact ⟨_, further, by simp [whole], by simp, .code nonempty short value⟩
        · cases point
      · cases point
    · cases point
  all_goals cases read
  all_goals exact ⟨[_], _, rfl, rfl, .letter (by decide)⟩

theorem readCodePoint_code {digits : List Char} {c : Char} (nonempty : digits ≠ [])
    (short : digits.length ≤ 6) (means : Base.hexadecimal.valueFrom? 0 digits = some c.toNat)
    (rest : List Char) :
    readCodePoint ('\x7b' :: (digits ++ '\x7d' :: rest)) = (.ok c, digits.length + 2) := by
  have taken : (digits ++ '\x7d' :: rest).takeWhile Base.hexadecimal.isDigit = digits := by
    rw [List.takeWhile_append_of_pos (Base.isDigit_of_valueFrom? means),
      List.takeWhile_cons_of_neg (by decide), List.append_nil]
  rw [readCodePoint, taken, List.drop_left]
  simp only [character?_eq_some.mpr ⟨nonempty, short, means⟩]

theorem readBody_item {written : List Char} {c : Char} (item : Item written c) (rest : List Char) :
    readBody (written ++ rest) = push c written.length (readBody rest) := by
  cases item with
  | plain noBreak noQuote noBackslash =>
      rw [List.singleton_append, readBody, if_neg noBreak, if_neg noQuote, if_neg noBackslash]
      rfl
  | @letter letter c means =>
      have read : readEscape (letter :: rest) = (.ok c, 1) := by
        simp only [letters, List.mem_cons, Prod.mk.injEq, List.not_mem_nil, or_false] at means
        rcases means with ⟨rfl, rfl⟩ | ⟨rfl, rfl⟩ | ⟨rfl, rfl⟩ | ⟨rfl, rfl⟩ | ⟨rfl, rfl⟩ <;> rfl
      exact readBody_backslash read
  | @code digits c nonempty short means =>
      have read : readEscape ('u' :: '\x7b' :: (digits ++ '\x7d' :: rest)) =
          (.ok c, digits.length + 3) := by
        rw [readEscape, readCodePoint_code nonempty short means rest]
      have text : '\\' :: 'u' :: '\x7b' :: (digits ++ ['\x7d']) ++ rest =
          '\\' :: 'u' :: '\x7b' :: (digits ++ '\x7d' :: rest) := by simp
      rw [text, readBody_backslash read]
      simp [List.drop_append, List.drop_eq_nil_of_le]

/-! ## Literals -/

theorem push_eq_ok {c : Char} {taken length : Nat} {content : List Char}
    {body : Except LexicalError (List Char) × Nat}
    (pushed : push c taken body = (.ok content, length)) :
    ∃ others count,
      body = (.ok others, count) ∧ content = c :: others ∧ length = taken + count := by
  obtain ⟨outcome, count⟩ := body
  cases outcome with
  | error error => cases pushed
  | ok others =>
      cases pushed
      exact ⟨others, count, rfl, rfl, rfl⟩

theorem items_of_readBody {text content : List Char} {length : Nat}
    (read : readBody text = (.ok content, length)) :
    ∃ written rest, text = written ++ '"' :: rest ∧ Items written content ∧
      length = written.length + 1 := by
  -- by the length of the text, since an escape takes several characters
  induction size : text.length using Nat.strongRecOn generalizing text content length with
  | ind size ih =>
      subst size
      cases text with
      | nil => simp [readBody] at read
      | cons c behind =>
          rw [readBody] at read
          split at read
          · cases read
          split at read
          · rename_i quote
            cases read
            exact ⟨[], behind, by rw [quote]; rfl, .nil, rfl⟩
          split at read
          · rename_i backslash
            split at read
            · rename_i meant taken escape
              obtain ⟨others, count, readOthers, rfl, rfl⟩ := push_eq_ok read
              obtain ⟨written, further, rfl, rfl, item⟩ := item_of_readEscape escape
              rw [List.drop_left] at readOthers
              have shorter : further.length < (c :: (written ++ further)).length := by
                simp only [List.length_cons, List.length_append]
                omega
              obtain ⟨inner, rest, rfl, items, rfl⟩ := ih _ shorter readOthers rfl
              refine ⟨'\\' :: written ++ inner, rest, by simp [backslash], .cons item items, ?_⟩
              simp only [List.length_append, List.length_cons]
              omega
            · cases read
          · rename_i noBreak noQuote noBackslash
            obtain ⟨others, count, readOthers, rfl, rfl⟩ := push_eq_ok read
            obtain ⟨inner, rest, rfl, items, rfl⟩ := ih _ (Nat.lt_succ_self _) readOthers rfl
            exact ⟨[c] ++ inner, rest, rfl, .cons (.plain noBreak noQuote noBackslash) items,
              by simp [Nat.add_comm]⟩

theorem readBody_items {written content : List Char} (items : Items written content)
    (rest : List Char) : readBody (written ++ '"' :: rest) = (.ok content, written.length + 1) := by
  induction items with
  | nil => simp [readBody]
  | @cons written others content c item items ih =>
      rw [List.append_assoc, readBody_item item, ih, push_ok, List.length_append, Nat.add_assoc]

/-- The reader accepts exactly the items up to a quote, and gives what they denote. -/
theorem readBody_eq_ok {text content : List Char} {length : Nat} :
    readBody text = (.ok content, length) ↔
      ∃ written rest, text = written ++ '"' :: rest ∧ Items written content ∧
        length = written.length + 1 := by
  constructor
  · exact items_of_readBody
  · rintro ⟨written, rest, rfl, items, rfl⟩
    exact readBody_items items rest

end ContractExpr.Text.Quoted
