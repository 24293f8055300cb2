import ContractExpr.Token.Lexeme
/-! # Reading a text as tokens

A reader stands at a position with text left. It skips blanks and reads one token at a time; at the
end of the text it gives the end token for ever. `Reader.tokens` lists the tokens up to the first
end token, which it finds because every other token takes a character.
-/
set_option autoImplicit false

namespace ContractExpr

open Text

namespace Lexeme

theorem chars_length_pos (mark : Symbol) : 0 < mark.chars.length := by cases mark <;> decide

theorem readDigits_length_pos (base : Base) (first : Char) (rest : List Char)
    (digit : first.isDigit = true) : 0 < (readDigits base false (first :: rest)).2 := by
  have alphanumeric : first.isAlphanum = true := by simp [Char.isAlphanum, digit]
  simp only [readDigits, Bool.false_eq_true, and_false, if_false, alphanumeric, if_true]
  split <;> exact Nat.succ_pos _

theorem numberLiteral_length_pos (first : Char) (rest : List Char) (digit : first.isDigit = true) :
    0 < (numberLiteral (first :: rest)).length := by
  unfold numberLiteral
  generalize markedBase (first :: rest) = marked
  obtain ⟨base, marker⟩ := marked
  have positive : 0 < marker + (readDigits base false ((first :: rest).drop marker)).2 := by
    cases marker with
    | zero => simpa using readDigits_length_pos base first rest digit
    | succ count => omega
  dsimp only
  split <;> rename_i result <;> rw [result] at positive
  · exact positive
  · split <;> exact positive

theorem word_length_pos (first : Char) (rest : List Char) (start : isNameStart first = true) :
    0 < (word (first :: rest)).length := by
  have part : isNamePart first = true := by
    simp only [isNameStart, isNamePart, Char.isAlphanum, Bool.or_eq_true] at start ⊢
    rcases start with letter | underscore
    · exact Or.inl (Or.inl letter)
    · exact Or.inr underscore
  simp [word, part]

theorem symbol_length_pos (first : Char) (rest : List Char) : 0 < (symbol first rest).length := by
  unfold symbol
  split
  · exact chars_length_pos _
  · exact Nat.one_pos

theorem read_length_pos (first : Char) (rest : List Char) : 0 < (read (first :: rest)).length := by
  unfold read
  split
  · contradiction
  · simp only [lineComment]; omega
  · unfold blockComment; split <;> simp only <;> omega
  · unfold stringLiteral; split <;> simp only <;> omega
  · rename_i same
    cases same
    split
    · exact numberLiteral_length_pos _ _ (by assumption)
    · split
      · exact word_length_pos _ _ (by assumption)
      · exact symbol_length_pos _ _

end Lexeme

/-- A place in a text with the text that follows it. -/
structure Reader where
  position : Position
  text : List Char
  deriving DecidableEq, Repr, Inhabited

namespace Reader

def ofString (source : String) : Reader := ⟨Position.start, source.toList⟩

def skipBlanks (reader : Reader) : Reader :=
  ⟨reader.position.advance (reader.text.takeWhile isBlank), reader.text.dropWhile isBlank⟩

def skip (reader : Reader) (count : Nat) : Reader :=
  ⟨reader.position.advance (reader.text.take count), reader.text.drop count⟩

def next (reader : Reader) : Token × Reader :=
  let first := reader.skipBlanks
  let lexeme := Lexeme.read first.text
  let last := first.skip lexeme.length
  (⟨lexeme.kind, Span.between first.position last.position⟩, last)

theorem next_text_shorter (reader : Reader) (more : reader.next.1.kind.isEnd = false) :
    reader.next.2.text.length < reader.text.length := by
  have skipped : reader.skipBlanks.text.length ≤ reader.text.length :=
    (List.dropWhile_suffix _).length_le
  simp only [next, skip, List.length_drop] at more ⊢
  cases content : reader.skipBlanks.text with
  | nil => simp [content, Lexeme.read, Token.Kind.isEnd] at more
  | cons first rest =>
    have positive := Lexeme.read_length_pos first rest
    rw [content] at skipped
    simp only [List.length_cons] at skipped ⊢
    omega

/-- The tokens up to and including the first end token. -/
def tokens (reader : Reader) : List Token :=
  let step := reader.next
  if step.1.kind.isEnd = true then [step.1] else step.1 :: step.2.tokens
termination_by reader.text.length
decreasing_by exact next_text_shorter reader (Bool.eq_false_iff.mpr (by assumption))

end Reader

/-- All tokens of a text, comments included, the end token last. -/
def tokenize (source : String) : List Token := (Reader.ofString source).tokens

end ContractExpr
