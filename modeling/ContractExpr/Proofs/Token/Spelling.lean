import ContractExpr.Proofs.Token.Kinds

/-! # Words and symbols read back

What is written for a word or a symbol is read as that word or symbol when the character behind it
cannot belong to it.
-/

set_option autoImplicit false

namespace ContractExpr

open Text Token

/-! ## Words -/

def EndsWord (rest : List Char) : Prop := ∀ c, rest.head? = some c → isNamePart c = false

@[simp]
theorem endsWord_nil : EndsWord [] := by
  simp [EndsWord]

@[simp]
theorem endsWord_cons (c : Char) (rest : List Char) :
    EndsWord (c :: rest) ↔ isNamePart c = false := by
  simp [EndsWord]

theorem takeWhile_of_endsWord {rest : List Char} (ends : EndsWord rest) :
    rest.takeWhile isNamePart = [] := by
  cases rest with
  | nil => rfl
  | cons c rest => exact List.takeWhile_cons_of_neg (by simpa using ends)

theorem isEnd_ofWord (word : String) : (Kind.ofWord word).isEnd = false := by
  unfold Kind.ofWord Kind.keyword?
  repeat' split
  all_goals rfl

theorem Lexeme.read_ofWord {word : String} {rest : List Char} (shape : isName word.toList = true)
    (ends : EndsWord rest) :
    read (word.toList ++ rest) = ⟨Kind.ofWord word, word.toList.length⟩ := by
  have parts := isNamePart_of_isName shape
  obtain ⟨first, tail, chars, start⟩ := isNameStart_of_isName shape
  have begins : read (word.toList ++ rest) = Lexeme.word (word.toList ++ rest) := by
    rw [chars, List.cons_append, read_of_isNameStart _ start]
  rw [begins, Lexeme.word, List.takeWhile_append_of_pos parts, takeWhile_of_endsWord ends,
    List.append_nil, String.ofList_toList]

theorem kindsOf_word {word : String} {rest : List Char} (shape : isName word.toList = true)
    (ends : EndsWord rest) :
    kindsOf (word.toList ++ rest) = Kind.ofWord word :: kindsOf rest := by
  obtain ⟨first, tail, chars, start⟩ := isNameStart_of_isName shape
  have read := Lexeme.read_ofWord shape ends
  have noBlank : isBlank first = false :=
    isBlank_of_isNamePart (isNamePart_of_isNameStart start)
  rw [chars, List.cons_append] at read
  rw [chars, List.cons_append, kindsOf_lexeme noBlank read (isEnd_ofWord word),
    ← List.cons_append, List.drop_left]

/-! ## Symbols -/

namespace Symbol

/-- Whether a character behind a symbol makes it a longer one or begins a comment with it. -/
def extendedBy (mark : Symbol) (c : Char) : Bool :=
  (ofChars? (mark.chars ++ [c])).isSome || mark == .slash && (c == '/' || c == '*')

def isSolid (mark : Symbol) : Bool :=
  mark != .slash && all.all fun other => !mark.chars.isPrefixOf other.chars || mark == other

theorem extendedBy_of_isSolid {mark : Symbol} (solid : mark.isSolid = true) (c : Char) :
    mark.extendedBy c = false := by
  rw [isSolid, Bool.and_eq_true, bne_iff_ne, List.all_eq_true] at solid
  obtain ⟨noSlash, noPrefix⟩ := solid
  have unknown : ofChars? (mark.chars ++ [c]) = none := by
    rw [ofChars?, List.find?_eq_none]
    intro other member same
    rw [beq_iff_eq] at same
    have begins : mark.chars.isPrefixOf other.chars = true := by
      rw [same, List.isPrefixOf_iff_prefix]
      exact List.prefix_append _ _
    have equal : mark = other := by
      simpa [begins] using noPrefix other member
    rw [equal] at same
    have lengths := congrArg List.length same
    simp at lengths
  simp [extendedBy, unknown, noSlash]

end Symbol

theorem longest?_of_none {mark : Symbol} {first c : Char} {rest : List Char}
    (chars : mark.chars = [first]) (alone : Symbol.ofChars? [first, c] = none) :
    Symbol.longest? first (c :: rest) = some mark := by
  have own : Symbol.ofChars? [first] = some mark := by
    rw [← chars]
    cases mark <;> rfl
  rw [Symbol.longest?, List.take_succ_cons, List.take_zero, alone, own, Option.none_or]

theorem read_symbol {mark : Symbol} {c : Char} (rest : List Char)
    (alone : mark.extendedBy c = false) :
    Lexeme.read (mark.chars ++ c :: rest) = ⟨.symbol mark, mark.chars.length⟩ := by
  have single : ∀ first, mark.chars = [first] → Symbol.longest? first (c :: rest) = some mark := by
    intro first chars
    rw [Symbol.extendedBy, chars, Bool.or_eq_false_iff, Option.isSome_eq_false_iff,
      Option.isNone_iff_eq_none] at alone
    exact longest?_of_none chars alone.1
  have noComment : mark = .slash → c ≠ '/' ∧ c ≠ '*' := by
    rintro rfl
    simp only [Symbol.extendedBy, Bool.or_eq_false_iff, Bool.and_eq_false_iff] at alone
    simpa using alone.2
  -- a symbol of two characters is read whatever follows it
  cases mark <;> first
    | rfl
    | simp_all [Lexeme.read, Symbol.chars, isNameStart, Lexeme.symbol]

theorem read_symbol_of_ends {mark : Symbol} {rest : List Char}
    (ends : ∀ c, rest.head? = some c → mark.extendedBy c = false) :
    Lexeme.read (mark.chars ++ rest) = ⟨.symbol mark, mark.chars.length⟩ := by
  cases rest with
  | nil => cases mark <;> rfl
  | cons c rest => exact read_symbol rest (ends c rfl)

theorem kindsOf_symbol {mark : Symbol} {rest : List Char}
    (ends : ∀ c, rest.head? = some c → mark.extendedBy c = false) :
    kindsOf (mark.chars ++ rest) = .symbol mark :: kindsOf rest := by
  have read := read_symbol_of_ends ends
  obtain ⟨first, tail, chars, noBlank⟩ :
      ∃ first tail, mark.chars = first :: tail ∧ isBlank first = false := by
    cases mark <;> exact ⟨_, _, rfl, by decide⟩
  rw [chars, List.cons_append] at read ⊢
  rw [kindsOf_lexeme noBlank read rfl, ← List.cons_append, List.drop_left]

end ContractExpr
