import ContractExpr.Parser.Grammar
import ContractExpr.Proofs.Text.CharClass

/-! # The kinds of the tokens of a text

Which tokens a text has depends on the text alone and not on the position it is read from, which
only enters the spans. The end token is the last one and no other token is an end token.
-/

set_option autoImplicit false

namespace ContractExpr

open Text Token

theorem Token.Kind.eq_of_isEnd {kind : Kind} (isEnd : kind.isEnd = true) : kind = .endOfInput := by
  cases kind <;> first | rfl | cases isEnd

def kindsOf (text : List Char) : List Kind :=
  (Reader.mk Position.start text).tokens.map Token.kind

namespace Reader

theorem next_kind (reader : Reader) :
    reader.next.1.kind = (Lexeme.read (reader.text.dropWhile isBlank)).kind := rfl

theorem next_text (reader : Reader) :
    reader.next.2.text = (reader.text.dropWhile isBlank).drop
      (Lexeme.read (reader.text.dropWhile isBlank)).length := rfl

theorem tokens_of_end {reader : Reader} (ended : reader.next.1.kind.isEnd = true) :
    reader.tokens = [reader.next.1] := by
  rw [tokens, if_pos ended]

theorem tokens_of_more {reader : Reader} (more : reader.next.1.kind.isEnd = false) :
    reader.tokens = reader.next.1 :: reader.next.2.tokens := by
  rw [tokens, if_neg (by simp [more])]

/-- Only the text decides which kinds of tokens are read. -/
theorem map_kind_tokens (reader other : Reader) (same : reader.text = other.text) :
    reader.tokens.map Token.kind = other.tokens.map Token.kind := by
  -- by the length of the text, which every token but the end token shortens
  induction size : reader.text.length using Nat.strongRecOn generalizing reader other with
  | ind size ih =>
      subst size
      have kinds : reader.next.1.kind = other.next.1.kind := by
        rw [next_kind, next_kind, same]
      cases more : reader.next.1.kind.isEnd with
      | true =>
          have more' : other.next.1.kind.isEnd = true := by rw [← kinds, more]
          simp [tokens_of_end more, tokens_of_end more', kinds]
      | false =>
          have more' : other.next.1.kind.isEnd = false := by rw [← kinds, more]
          have texts : reader.next.2.text = other.next.2.text := by
            rw [next_text, next_text, same]
          have behind := ih _ (next_text_shorter reader more) reader.next.2 other.next.2 texts rfl
          rw [tokens_of_more more, tokens_of_more more', List.map_cons, List.map_cons, kinds,
            behind]

end Reader

theorem map_kind_tokenize (source : String) :
    (tokenize source).map Token.kind = kindsOf source.toList := rfl

theorem kindsOf_of_end {text : List Char}
    (ended : (Lexeme.read (text.dropWhile isBlank)).kind.isEnd = true) :
    kindsOf text = [(Lexeme.read (text.dropWhile isBlank)).kind] := by
  rw [kindsOf, Reader.tokens_of_end (by exact ended)]
  rfl

theorem kindsOf_of_more {text : List Char}
    (more : (Lexeme.read (text.dropWhile isBlank)).kind.isEnd = false) :
    kindsOf text = (Lexeme.read (text.dropWhile isBlank)).kind ::
      kindsOf ((text.dropWhile isBlank).drop (Lexeme.read (text.dropWhile isBlank)).length) := by
  have behind := Reader.map_kind_tokens (Reader.mk Position.start text).next.2
    ⟨Position.start, (Reader.mk Position.start text).next.2.text⟩ rfl
  rw [kindsOf, Reader.tokens_of_more (by exact more), List.map_cons, behind]
  rfl

theorem kindsOf_nil : kindsOf [] = [.endOfInput] := kindsOf_of_end rfl

theorem kindsOf_blank {c : Char} (blank : isBlank c = true) (text : List Char) :
    kindsOf (c :: text) = kindsOf text := by
  have skipped : (c :: text).dropWhile isBlank = text.dropWhile isBlank := by simp [blank]
  cases more : (Lexeme.read (text.dropWhile isBlank)).kind.isEnd with
  | true => rw [kindsOf_of_end (skipped ▸ more), kindsOf_of_end more, skipped]
  | false => rw [kindsOf_of_more (skipped ▸ more), kindsOf_of_more more, skipped]

theorem kindsOf_blanks {gap : List Char} (blank : ∀ c ∈ gap, isBlank c = true)
    (rest : List Char) : kindsOf (gap ++ rest) = kindsOf rest := by
  induction gap with
  | nil => rfl
  | cons c gap ih =>
      obtain ⟨isBlank, others⟩ := List.forall_mem_cons.mp blank
      rw [List.cons_append, kindsOf_blank isBlank, ih others]

/-- A token at the front of a text, and the tokens of what is behind it. -/
theorem kindsOf_lexeme {first : Char} {rest : List Char} {kind : Kind} {length : Nat}
    (noBlank : isBlank first = false) (read : Lexeme.read (first :: rest) = ⟨kind, length⟩)
    (more : kind.isEnd = false) :
    kindsOf (first :: rest) = kind :: kindsOf ((first :: rest).drop length) := by
  have kept : (first :: rest).dropWhile isBlank = first :: rest := by simp [noBlank]
  rw [kindsOf_of_more (by rw [kept, read]; exact more), kept, read]

/-! ## Induction on the tokens of a text -/

theorem kindsOf_induction {motive : List Kind → Prop} (ended : motive [.endOfInput])
    (step : ∀ text kinds, (Lexeme.read text).kind.isEnd = false → motive kinds →
      motive ((Lexeme.read text).kind :: kinds)) (text : List Char) : motive (kindsOf text) := by
  induction size : text.length using Nat.strongRecOn generalizing text with
  | ind size ih =>
      subst size
      cases more : (Lexeme.read (text.dropWhile isBlank)).kind.isEnd with
      | true =>
          rw [kindsOf_of_end more, Kind.eq_of_isEnd more]
          exact ended
      | false =>
          rw [kindsOf_of_more more]
          refine step _ _ more (ih _ ?_ _ rfl)
          exact Reader.next_text_shorter ⟨Position.start, text⟩ more

/-- The end token is the last one and no other token is an end token. -/
theorem kindsOf_eq_append (text : List Char) :
    ∃ kinds, kindsOf text = kinds ++ [.endOfInput] ∧ ∀ kind ∈ kinds, kind.isEnd = false := by
  apply kindsOf_induction (motive := fun whole => ∃ kinds : List Kind,
    whole = kinds ++ [Kind.endOfInput] ∧ ∀ kind ∈ kinds, kind.isEnd = false)
  · exact ⟨[], rfl, by simp⟩
  · rintro text _ more ⟨inner, rfl, noEnd⟩
    exact ⟨_ :: inner, rfl, List.forall_mem_cons.mpr ⟨more, noEnd⟩⟩

/-! ## First characters -/

theorem Lexeme.read_of_isDigit {first : Char} (rest : List Char) (digit : first.isDigit = true) :
    read (first :: rest) = numberLiteral (first :: rest) := by
  unfold read
  split <;> simp_all

theorem read_of_isNameStart {first : Char} (rest : List Char) (start : isNameStart first = true) :
    Lexeme.read (first :: rest) = Lexeme.word (first :: rest) := by
  have noDigit := isDigit_of_isNameStart start
  unfold Lexeme.read
  split
  · contradiction
  · simp_all [isNameStart]
  · simp_all [isNameStart]
  · simp_all [isNameStart]
  · simp_all

/-- What a text begins with that is read as a literal or a name. -/
def Token.Kind.Begins (text : List Char) : Kind → Prop
  | .string _ => ∃ rest, text = '"' :: rest
  | .number _ _ => ∃ first rest, text = first :: rest ∧ first.isDigit = true
  | .name _ => ∃ first rest, text = first :: rest ∧ isNameStart first = true
  | _ => True

theorem begins_ofWord {first : Char} (rest : List Char) (word : String)
    (start : isNameStart first = true) : (Kind.ofWord word).Begins (first :: rest) := by
  unfold Kind.ofWord Kind.keyword?
  repeat' split
  all_goals first | trivial | exact ⟨first, rest, rfl, start⟩

theorem read_begins (text : List Char) : (Lexeme.read text).kind.Begins text := by
  unfold Lexeme.read
  split
  · trivial
  · trivial
  · unfold Lexeme.blockComment
    split <;> trivial
  · unfold Lexeme.stringLiteral
    split
    · exact ⟨_, rfl⟩
    · trivial
  · rename_i first rest _ _ _
    split
    · rename_i digit
      unfold Lexeme.numberLiteral
      dsimp only
      repeat' split
      all_goals first | trivial | exact ⟨first, rest, rfl, digit⟩
    · split
      · rename_i start
        exact begins_ofWord rest _ start
      · unfold Lexeme.symbol
        split <;> trivial

/-! ## Names -/

/-- A text that can be a name: of the right characters, and not reserved. -/
def UsableName (text : String) : Prop := isName text.toList = true ∧ isReserved text = false

theorem keyword?_eq_none_iff (word : String) :
    Kind.keyword? word = none ↔ isReserved word = false := by
  have null : "null" ∈ reservedWords := by decide
  have initOf : "initOf" ∈ reservedWords := by decide
  simp only [Kind.keyword?, isReserved, Bool.or_eq_false_iff, beq_eq_false_iff_ne]
  grind

theorem ofWord_of_not_reserved {word : String} (free : isReserved word = false) :
    Kind.ofWord word = .name word := by
  rw [Kind.ofWord, (keyword?_eq_none_iff word).mpr free, Option.getD_none]

theorem ofWord_eq_name {word text : String} (isName : Kind.ofWord word = .name text) :
    text = word ∧ isReserved word = false := by
  cases keyword : Kind.keyword? word with
  | none =>
      rw [Kind.ofWord, keyword, Option.getD_none] at isName
      cases isName
      exact ⟨rfl, (keyword?_eq_none_iff word).mp keyword⟩
  | some kind =>
      rw [Kind.ofWord, keyword, Option.getD_some] at isName
      subst isName
      unfold Kind.keyword? at keyword
      grind

theorem isName_takeWhile {first : Char} (rest : List Char) (start : isNameStart first = true) :
    isName ((first :: rest).takeWhile isNamePart) = true := by
  rw [List.takeWhile_cons_of_pos (isNamePart_of_isNameStart start), isName, start, Bool.true_and]
  exact List.all_takeWhile

theorem read_eq_word {text : List Char} {name : String}
    (read : (Lexeme.read text).kind = .name name) :
    ∃ first rest, text = first :: rest ∧ isNameStart first = true ∧
      Lexeme.read text = Lexeme.word text := by
  have begins := read_begins text
  rw [read] at begins
  obtain ⟨first, rest, rfl, start⟩ := begins
  exact ⟨first, rest, rfl, start, read_of_isNameStart rest start⟩

theorem usableName_of_read {text : List Char} {name : String}
    (read : (Lexeme.read text).kind = .name name) : UsableName name := by
  obtain ⟨first, rest, rfl, start, word⟩ := read_eq_word read
  rw [word] at read
  obtain ⟨rfl, free⟩ := ofWord_eq_name read
  exact ⟨by simpa using isName_takeWhile rest start, free⟩

theorem usableName_of_mem {text : List Char} {name : String} (member : .name name ∈ kindsOf text) :
    UsableName name := by
  have all : ∀ kind ∈ kindsOf text, ∀ given, kind = .name given → UsableName given := by
    apply kindsOf_induction (motive := fun whole : List Kind =>
      ∀ kind ∈ whole, ∀ given, kind = .name given → UsableName given)
    · simp
    · intro text kinds _ ih
      exact List.forall_mem_cons.mpr ⟨fun given => usableName_of_read, ih⟩
  exact all _ member name rfl

end ContractExpr
