import ContractExpr.Proofs.Token.Literals

/-! # Opening parentheses of a text

In a text without comments every opening parenthesis outside the string literals is a token of its
own, whatever tokens the characters around it make.
-/

set_option autoImplicit false

namespace ContractExpr

open Text Token

/-! ## Opening parentheses in a run of tokens -/

def openings (kinds : List Kind) : Nat := kinds.count (.symbol .leftParen)

@[simp]
theorem openings_nil : openings [] = 0 := rfl

@[simp]
theorem openings_append (front back : List Kind) :
    openings (front ++ back) = openings front + openings back := List.count_append

@[simp]
theorem openings_cons (kind : Kind) (kinds : List Kind) :
    openings (kind :: kinds) = openings kinds + if kind = .symbol .leftParen then 1 else 0 := by
  simp [openings, List.count_cons]

/-! ## Plain characters -/

def isPlain (c : Char) : Bool := c != '(' && c != '"' && c != '/'

theorem isPlain_of_isNamePart {c : Char} (part : isNamePart c = true) : isPlain c = true := by
  rw [isNamePart_iff] at part
  simp only [isPlain, Bool.and_eq_true, bne_iff_ne]
  refine ⟨⟨?_, ?_⟩, ?_⟩ <;>
  · rintro rfl
    simp at part

namespace Lexeme

theorem isPlain_of_readDigits (base : Base) (afterDigit : Bool) (text : List Char) :
    ∀ c ∈ text.take (readDigits base afterDigit text).2, isPlain c = true := by
  induction text generalizing afterDigit with
  | nil => simp [readDigits]
  | cons first rest ih =>
      rw [readDigits]
      split
      · rename_i separator
        exact List.forall_mem_cons.mpr ⟨by rw [separator.1]; rfl, ih false⟩
      · split
        · rename_i digit
          exact List.forall_mem_cons.mpr
            ⟨isPlain_of_isNamePart (Base.isNamePart_of_isDigit digit), ih true⟩
        · split
          · rename_i foreign
            have part : isNamePart first = true := by simp [isNamePart, foreign]
            simpa using isPlain_of_isNamePart part
          · simp

theorem isPlain_of_markedBase (text : List Char) :
    ∀ c ∈ text.take (markedBase text).2, isPlain c = true := by
  unfold markedBase
  split
  · rename_i letter rest
    split
    · rename_i base found
      have marks : base.letter? = some letter.toLower := by
        simpa using List.find?_some found
      have isLetter : letter.isAlpha = true := by
        cases alpha : letter.isAlpha with
        | true => rfl
        | false => exact absurd marks (Base.letter?_ne_toLower alpha base)
      have part : isNamePart letter = true := by simp [isNamePart, Char.isAlphanum, isLetter]
      simpa using ⟨rfl, isPlain_of_isNamePart part⟩
    · simp
  · simp

theorem numberLiteral_length (text : List Char) :
    (numberLiteral text).length = (markedBase text).2 +
      (readDigits (markedBase text).1 false (text.drop (markedBase text).2)).2 := by
  unfold numberLiteral
  dsimp only
  repeat' split
  all_goals simp_all

theorem isPlain_of_numberLiteral (text : List Char) :
    ∀ c ∈ text.take (numberLiteral text).length, isPlain c = true := by
  rw [numberLiteral_length, List.take_add]
  exact List.forall_mem_append.mpr
    ⟨isPlain_of_markedBase text, isPlain_of_readDigits _ false _⟩

theorem isPlain_of_word (text : List Char) :
    ∀ c ∈ text.take (word text).length, isPlain c = true := by
  intro c member
  have taken : text.take (word text).length = text.takeWhile isNamePart :=
    List.prefix_iff_eq_take.mp (List.takeWhile_prefix _) |>.symm
  rw [taken] at member
  exact isPlain_of_isNamePart (List.all_eq_true.mp List.all_takeWhile c member)

theorem isPlain_of_mem_chars {mark : Symbol} {c : Char}
    (other : mark ≠ .leftParen) (noSlash : mark ≠ .slash) (member : c ∈ mark.chars) :
    isPlain c = true := by
  have all : mark.chars.all isPlain = true := by
    cases mark <;> first | rfl | contradiction
  exact List.all_eq_true.mp all c member

theorem longest?_begins {first : Char} {rest : List Char} {mark : Symbol}
    (found : Symbol.longest? first rest = some mark) :
    mark.chars <+: first :: rest := by
  rcases Option.or_eq_some_iff.mp found with two | ⟨_, one⟩
  · have spelled : mark.chars = first :: rest.take 1 := by
      simpa [Symbol.ofChars?] using List.find?_some two
    rw [spelled]
    exact List.cons_prefix_cons.mpr ⟨rfl, List.take_prefix 1 rest⟩
  · have spelled : mark.chars = [first] := by
      simpa [Symbol.ofChars?] using List.find?_some one
    rw [spelled]
    exact ⟨rest, rfl⟩

theorem symbol_of_isPlain {first : Char} (rest : List Char) (plain : isPlain first = true) :
    (symbol first rest).kind ≠ .symbol .leftParen ∧
      ∀ c ∈ (first :: rest).take (symbol first rest).length, isPlain c = true := by
  unfold symbol
  split
  · rename_i mark found
    have begins := longest?_begins found
    have other : mark ≠ .leftParen := by
      rintro rfl
      obtain ⟨back, same⟩ := begins
      cases same
      cases plain
    have noSlash : mark ≠ .slash := by
      rintro rfl
      obtain ⟨back, same⟩ := begins
      cases same
      cases plain
    refine ⟨by simpa using other, ?_⟩
    rw [← List.prefix_iff_eq_take.mp begins]
    exact fun c member => isPlain_of_mem_chars other noSlash member
  · exact ⟨by simp, by simpa using plain⟩

theorem numberLiteral_kind (text : List Char) :
    (numberLiteral text).kind ≠ .symbol .leftParen ∧
      (numberLiteral text).kind.isEnd = false := by
  unfold numberLiteral
  dsimp only
  repeat' split
  all_goals exact ⟨by simp, rfl⟩

theorem word_kind (text : List Char) :
    (word text).kind ≠ .symbol .leftParen ∧ (word text).kind.isEnd = false := by
  refine ⟨?_, isEnd_ofWord _⟩
  unfold word Kind.ofWord Kind.keyword?
  dsimp only
  repeat' split
  all_goals simp

/-- A token that begins with a plain character is made of such, and no parenthesis opens. -/
theorem read_of_isPlain {first : Char} (rest : List Char) (plain : isPlain first = true) :
    (read (first :: rest)).kind ≠ .symbol .leftParen ∧
      (read (first :: rest)).kind.isEnd = false ∧
      ∀ c ∈ (first :: rest).take (read (first :: rest)).length, isPlain c = true := by
  by_cases digit : first.isDigit = true
  · rw [read_of_isDigit rest digit]
    exact ⟨(numberLiteral_kind _).1, (numberLiteral_kind _).2, isPlain_of_numberLiteral _⟩
  by_cases start : isNameStart first = true
  · rw [read_of_isNameStart rest start]
    exact ⟨(word_kind _).1, (word_kind _).2, isPlain_of_word _⟩
  · have alone : read (first :: rest) = symbol first rest := by
      unfold read
      split
      · contradiction
      · rename_i same
        cases same
        cases plain
      · rename_i same
        cases same
        cases plain
      · rename_i same
        cases same
        cases plain
      · rename_i same
        cases same
        rw [if_neg digit, if_neg start]
    obtain ⟨noParen, each⟩ := symbol_of_isPlain rest plain
    rw [alone]
    refine ⟨noParen, ?_, each⟩
    unfold symbol
    split <;> rfl

end Lexeme

/-! ## Texts -/

/-- A text without comments that has so many opening parentheses outside its string literals. -/
inductive Opened : Nat → List Char → Prop where
  | nil : Opened 0 []
  | paren {count : Nat} {text : List Char} (behind : Opened count text) :
      Opened (count + 1) ('(' :: text)
  | slash {count : Nat} {text : List Char} (behind : Opened count text) :
      Opened count ('/' :: ' ' :: text)
  | string {count : Nat} {text : List Char} (content : List Char) (behind : Opened count text) :
      Opened count (Quoted.write content ++ text)
  | plain {count : Nat} {text : List Char} {c : Char} (plain : isPlain c = true)
      (behind : Opened count text) : Opened count (c :: text)

namespace Opened

variable {count : Nat} {text : List Char}

theorem append_plain {front : List Char} (each : ∀ c ∈ front, isPlain c = true)
    (opened : Opened count text) : Opened count (front ++ text) := by
  induction front with
  | nil => exact opened
  | cons first rest ih =>
      obtain ⟨plain, others⟩ := List.forall_mem_cons.mp each
      exact .plain plain (ih others)

theorem drop (opened : Opened count text) (length : Nat)
    (each : ∀ c ∈ text.take length, isPlain c = true) : Opened count (text.drop length) := by
  induction length generalizing text with
  | zero => exact opened
  | succ length ih =>
      cases opened with
      | nil => exact .nil
      | paren behind =>
          have plain := each '(' List.mem_cons_self
          cases plain
      | slash behind =>
          have plain := each '/' List.mem_cons_self
          cases plain
      | string content behind =>
          have plain := each '"' List.mem_cons_self
          cases plain
      | plain plain behind => exact ih behind (List.forall_mem_cons.mp each).2

/-- The opening parentheses of a text are its tokens of this kind. -/
theorem openings_kindsOf (opened : Opened count text) : openings (kindsOf text) = count := by
  -- by the length of the text, since a token may be made of many plain characters
  induction size : text.length using Nat.strongRecOn generalizing count text with
  | ind size ih =>
      subst size
      cases opened with
      | nil => rw [kindsOf_nil]; rfl
      | @paren count text behind =>
          have read : kindsOf (Symbol.leftParen.chars ++ text) =
              .symbol .leftParen :: kindsOf text :=
            kindsOf_symbol fun c _ => Symbol.extendedBy_of_isSolid rfl c
          have inner := ih _ (Nat.lt_succ_self _) behind rfl
          exact (congrArg openings read).trans (by simp [inner])
      | @slash count text behind =>
          have alone : ∀ c, (' ' :: text).head? = some c → Symbol.slash.extendedBy c = false := by
            rintro c ⟨⟩
            rfl
          have read : kindsOf (Symbol.slash.chars ++ ' ' :: text) =
              .symbol .slash :: kindsOf (' ' :: text) := kindsOf_symbol alone
          have inner := ih _ (Nat.lt_succ_of_lt (Nat.lt_succ_self _)) behind rfl
          rw [kindsOf_blank rfl] at read
          exact (congrArg openings read).trans (by simp [inner])
      | @string count text content behind =>
          have read := kindsOf_string (String.ofList content) text
          rw [String.toList_ofList] at read
          have shorter : text.length < (Quoted.write content ++ text).length := by
            simp only [Quoted.write, List.cons_append, List.length_cons, List.length_append]
            omega
          have inner := ih _ shorter behind rfl
          simp [read, inner]
      | @plain count text c plain behind =>
          by_cases blank : isBlank c = true
          · rw [kindsOf_blank blank]
            exact ih _ (Nat.lt_succ_self _) behind rfl
          · obtain ⟨noParen, more, each⟩ := Lexeme.read_of_isPlain text plain
            have shorter : ((c :: text).drop (Lexeme.read (c :: text)).length).length <
                (c :: text).length := by
              have positive := Lexeme.read_length_pos c text
              rw [List.length_drop]
              exact Nat.sub_lt (Nat.succ_pos _) positive
            have inner := ih _ shorter ((Opened.plain plain behind).drop _ each) rfl
            have read : kindsOf (c :: text) = (Lexeme.read (c :: text)).kind ::
                kindsOf ((c :: text).drop (Lexeme.read (c :: text)).length) :=
              kindsOf_lexeme (Bool.eq_false_iff.mpr blank) rfl more
            exact (congrArg openings read).trans (by simp [noParen, inner])

end Opened

end ContractExpr
