import ContractExpr.Expr.Layout
import ContractExpr.Proofs.Token.Alone

/-! # The grammar of literals

A source is one string literal exactly when it is items between quotes, and one number literal
exactly when it is a marker and digits of the base with single separators between them. What a
number token is made of ends where no word goes on, so a faulty literal is never cut in two.
-/

set_option autoImplicit false

namespace ContractExpr

open Text Token

/-! ## Number literals -/

theorem alone_number_iff {source : String} {base : Base} {digits : String} :
    Alone source (.number base digits) ↔ base.Literal source.toList digits.toList := by
  rw [alone_iff]
  constructor
  · rintro ⟨-, -, read⟩
    have begins := read_begins source.toList
    rw [read] at begins
    obtain ⟨first, rest, text, digit⟩ := begins
    rw [text, Lexeme.read_of_isDigit rest digit, ← String.ofList_toList (s := digits),
      Lexeme.numberLiteral_eq_number] at read
    obtain ⟨written, behind, whole, literal, length, -⟩ := read
    have none : behind = [] := by
      rw [whole, List.length_append] at length
      exact List.length_eq_zero_iff.mp (by omega)
    rw [text, whole, none, List.append_nil]
    exact literal
  · intro literal
    have read : Lexeme.numberLiteral source.toList =
        ⟨.number base (String.ofList digits.toList), source.toList.length⟩ :=
      Lexeme.numberLiteral_eq_number.mpr
        ⟨source.toList, [], (List.append_nil _).symm, literal, rfl, endsWord_nil⟩
    obtain ⟨first, rest, text, digit⟩ := literal.begins
    rw [String.ofList_toList, text] at read
    rw [text, Lexeme.read_of_isDigit rest digit]
    exact ⟨rfl, fun c head => by cases head; exact isBlank_of_isDigit digit, read⟩

/-- The sources of one number are the literals of its base. A source that begins with a digit begins
with a literal that no letter, digit or separator follows, or with a faulty token. -/
theorem tokenize_number :
    (∀ (source : String) (base : Base) (digits : String),
      Alone source (.number base digits) ↔ base.Literal source.toList digits.toList) ∧
    ∀ (source : String) (first : Char) (rest : List Char),
      source.toList = first :: rest → first.isDigit = true →
        ∃ token others, tokenize source = token :: others ∧
          ((∃ base digits written behind, source.toList = written ++ behind ∧
              token = ⟨.number base digits, ⟨0, String.utf8Len written, 1, 1⟩⟩ ∧
              base.Literal written digits.toList ∧
              ∀ c, behind.head? = some c → isNamePart c = false) ∨
            token.kind.isMalformed = true) := by
  refine ⟨fun source base digits => alone_number_iff, fun source first rest text digit => ?_⟩
  obtain ⟨kind, inside, behind, others, whole, read, tokens, -⟩ :=
    tokenize_front text (isBlank_of_isDigit digit)
  refine ⟨_, others, tokens, ?_⟩
  rw [text]
  rw [Lexeme.read_of_isDigit rest digit] at read
  have cases := Lexeme.numberLiteral_cases (first :: rest)
  rw [read] at cases
  rcases cases with ⟨base, digits, rfl⟩ | malformed
  · left
    rw [← String.ofList_toList (s := digits), Lexeme.numberLiteral_eq_number] at read
    obtain ⟨written, behind', whole', literal, length, ends⟩ := read
    obtain ⟨rfl, rfl⟩ := List.append_inj (whole.symm.trans whole') length
    exact ⟨base, digits, inside, behind, whole, rfl, literal, ends⟩
  · exact .inr malformed

/-- A literal with a separator, and one with two separators in a row. -/
theorem tokenize_number_separators :
    Alone "0X1_fF" (.number .hexadecimal "1fF") ∧
      ∃ token others, tokenize "1__2" = token :: others ∧ token.kind.isMalformed = true := by
  have literal : Base.hexadecimal.Literal (['0', 'X'] ++ '1' :: ['_', 'f', 'F']) ['1', 'f', 'F'] :=
    .mk (by decide) (by decide) (.separated (by decide) (.digit (by decide) .nil))
  refine ⟨(tokenize_number.1 "0X1_fF" .hexadecimal "1fF").mpr literal, ?_⟩
  obtain ⟨token, others, tokens, outcome⟩ := tokenize_number.2 "1__2" '1' ['_', '_', '2'] rfl rfl
  refine ⟨token, others, tokens, ?_⟩
  have first : (tokenize "1__2").head? =
      some ⟨.malformed (.malformedNumber "1_"), ⟨0, 2, 1, 1⟩⟩ := by decide +kernel
  rw [tokens] at first
  cases first
  rfl

/-! ## String literals -/

namespace Text.Quoted

/-- An escape is one to six hexadecimal digits that denote the code of a character. -/
theorem item_code_iff {digits : List Char} {c : Char} :
    Item ('\\' :: 'u' :: '\x7b' :: (digits ++ ['\x7d'])) c ↔
      digits ≠ [] ∧ digits.length ≤ 6 ∧ (∀ d ∈ digits, Base.hexadecimal.HasDigit d) ∧
        Base.hexadecimal.denoted digits = c.toNat := by
  constructor
  · intro item
    generalize whole : '\\' :: 'u' :: '\x7b' :: (digits ++ ['\x7d']) = written at item
    cases item with
    | plain => cases whole
    | letter => cases whole
    | code nonempty short means =>
        simp only [List.cons.injEq, List.append_cancel_right_eq, true_and] at whole
        rw [whole]
        exact ⟨nonempty, short, Base.valueFrom?_eq_some.mp means⟩
  · rintro ⟨nonempty, short, means⟩
    exact .code nonempty short (Base.valueFrom?_eq_some.mpr means)

/-- What is written for a text are items that denote it. -/
theorem items_escape (content : List Char) : Items (content.flatMap escape) content := by
  obtain ⟨written, rest, whole, items, length⟩ := readBody_eq_ok.mp (readBody_write content [])
  obtain ⟨rfl, -⟩ := List.append_inj whole (Nat.add_right_cancel length)
  exact items

end Text.Quoted

theorem alone_string_iff {source content : String} :
    Alone source (.string content) ↔ ∃ written, source.toList = '"' :: (written ++ ['"']) ∧
      Quoted.Items written content.toList := by
  rw [alone_iff]
  constructor
  · rintro ⟨-, -, read⟩
    have begins := read_begins source.toList
    rw [read] at begins
    obtain ⟨rest, text⟩ := begins
    rw [text, Lexeme.read, Lexeme.stringLiteral] at read
    split at read
    · rename_i found length body
      rw [Lexeme.mk.injEq, Kind.string.injEq] at read
      obtain ⟨rfl, covers⟩ := read
      obtain ⟨written, behind, rfl, items, rfl⟩ := Quoted.readBody_eq_ok.mp body
      have none : behind = [] := by
        simp only [List.length_cons, List.length_append] at covers
        exact List.length_eq_zero_iff.mp (by omega)
      rw [String.toList_ofList]
      exact ⟨written, by rw [text, none], items⟩
    · cases read
  · rintro ⟨written, text, items⟩
    have body := Quoted.readBody_items items []
    rw [text, Lexeme.read, Lexeme.stringLiteral, body]
    refine ⟨rfl, fun c head => by cases head; rfl, ?_⟩
    simp [Nat.add_comm]

/-- The sources of one string are items between quotes, which denote the string. What is written
for a string is such a source, and before any text it is the first token. -/
theorem tokenize_string :
    (∀ source content : String, Alone source (.string content) ↔
      ∃ written, source.toList = '"' :: (written ++ ['"']) ∧
        Quoted.Items written content.toList) ∧
    (∀ (digits : List Char) (c : Char),
      Quoted.Item ('\\' :: 'u' :: '\x7b' :: (digits ++ ['\x7d'])) c ↔
        digits ≠ [] ∧ digits.length ≤ 6 ∧ (∀ d ∈ digits, Base.hexadecimal.HasDigit d) ∧
          Base.hexadecimal.denoted digits = c.toNat) ∧
    ∀ (content : String) (info : Info),
      (∃ written, (Expr.string content info).render.toList = '"' :: (written ++ ['"']) ∧
        Quoted.Items written content.toList) ∧
      ∀ behind, (tokenize ((Expr.string content info).render ++ behind)).head? =
        some ⟨.string content, ⟨0, (Expr.string content info).render.utf8ByteSize, 1, 1⟩⟩ := by
  refine ⟨fun source content => alone_string_iff, fun digits c => Quoted.item_code_iff,
    fun content info => ?_⟩
  have render : (Expr.string content info).render.toList = Quoted.write content.toList := by
    simp [Expr.render, Expr.layout, Piece.write, Piece.chars]
  refine ⟨⟨_, render, Quoted.items_escape content.toList⟩, fun behind => ?_⟩
  have text : ((Expr.string content info).render ++ behind).toList =
      Quoted.write content.toList ++ behind.toList := by rw [String.toList_append, render]
  obtain ⟨kind, inside, rest, others, whole, read, tokens, -⟩ := tokenize_front text rfl
  obtain ⟨rfl, length⟩ := Lexeme.mk.inj ((Lexeme.read_write content behind.toList).symm.trans read)
  obtain ⟨rfl, -⟩ := List.append_inj whole length
  rw [tokens, ← render, utf8Len_toList]
  rfl

end ContractExpr
