import ContractExpr.Proofs.Number.Canonical
import ContractExpr.Proofs.Token.Extents
import Mathlib.Data.List.Basic

/-! # Number literals

A number token is read from exactly the literals of its base: a marker, a digit, and further digits
with at most one separator before each. A literal ends where no word goes on, and its digits always
denote a number.
-/

set_option autoImplicit false

namespace ContractExpr

open Text Token

/-! ## Digits of a base -/

namespace Base

theorem isDigit_iff_hasDigit {base : Base} {c : Char} :
    base.isDigit c = true ↔ base.HasDigit c := by
  rw [isDigit, digit?_eq]
  by_cases digit : base.HasDigit c
  · simp [digit]
  · simp [digit]

/-- What stands before the digits of a literal. The letter counts in either case. -/
def markers : Base → List (List Char)
  | .binary => [['0', 'b'], ['0', 'B']]
  | .octal => [['0', 'o'], ['0', 'O']]
  | .decimal => [[]]
  | .hexadecimal => [['0', 'x'], ['0', 'X']]

/-- Further digits of a literal as they are written, each with at most one separator before it,
and without their separators. -/
inductive Further (base : Base) : List Char → List Char → Prop where
  | nil : Further base [] []
  | digit {c : Char} {written digits : List Char} (digit : base.HasDigit c)
      (further : Further base written digits) : Further base (c :: written) (c :: digits)
  | separated {c : Char} {written digits : List Char} (digit : base.HasDigit c)
      (further : Further base written digits) : Further base ('_' :: c :: written) (c :: digits)

inductive Literal (base : Base) : List Char → List Char → Prop where
  | mk {marker written digits : List Char} {first : Char} (marks : marker ∈ base.markers)
      (digit : base.HasDigit first) (further : base.Further written digits) :
      Literal base (marker ++ first :: written) (first :: digits)

theorem mem_markers_of_letter? {base : Base} {letter : Char}
    (named : base.letter? = some letter.toLower) : ['0', letter] ∈ base.markers := by
  have narrow : letter.toNat < 128 := by
    by_contra wide
    rw [toLower_of_wide (Nat.le_of_not_lt wide)] at named
    cases base <;> cases named <;> exact wide (by decide)
  have all : ∀ base ∈ Base.all, ∀ code < 128,
      base.letter? = some (Char.ofNat code).toLower → ['0', Char.ofNat code] ∈ base.markers := by
    decide
  simpa using all base base.mem_all letter.toNat narrow (by simpa using named)

theorem Literal.begins {base : Base} {written digits : List Char}
    (literal : base.Literal written digits) :
    ∃ first rest, written = first :: rest ∧ first.isDigit = true := by
  obtain ⟨marks, digit, further⟩ := literal
  cases base with
  | decimal =>
      rw [List.mem_singleton.mp marks]
      exact ⟨_, _, rfl, isDigit_of_isDigit_decimal (isDigit_iff_hasDigit.mpr digit)⟩
  | binary | octal | hexadecimal =>
      rcases List.mem_pair.mp marks with rfl | rfl
      · exact ⟨'0', _, rfl, rfl⟩
      · exact ⟨'0', _, rfl, rfl⟩

theorem Further.digits {base : Base} {written digits : List Char}
    (further : base.Further written digits) : ∀ c ∈ digits, base.HasDigit c := by
  induction further with
  | nil => exact fun c member => absurd member List.not_mem_nil
  | digit digit _ ih => exact List.forall_mem_cons.mpr ⟨digit, ih⟩
  | separated digit _ ih => exact List.forall_mem_cons.mpr ⟨digit, ih⟩

theorem Further.noLetter {written digits rest : List Char}
    (further : decimal.Further written digits) (ends : EndsWord rest) :
    ∀ c, (written ++ rest).head? = some c → c.isAlpha = false := by
  cases further with
  | nil => exact fun c head => Lexeme.isAlpha_of_endsWord ends head
  | digit digit =>
      intro c head
      cases head
      have digit := (isDigit_iff _).mp (isDigit_of_isDigit_decimal (isDigit_iff_hasDigit.mpr digit))
      rw [Bool.eq_false_iff, ne_eq, isAlpha_iff]
      omega
  | separated =>
      intro c head
      cases head
      rfl

end Base

/-! ## Number literals -/

namespace Lexeme

theorem readDigits_digit {base : Base} {c : Char} (digit : base.isDigit c = true)
    (afterDigit : Bool) (rest : List Char) :
    readDigits base afterDigit (c :: rest) =
      ((readDigits base true rest).1.map (c :: ·), (readDigits base true rest).2 + 1) := by
  have noSeparator : c ≠ '_' := by
    rintro rfl
    rw [base.not_isDigit_underscore] at digit
    cases digit
  rw [readDigits, if_neg fun separator => noSeparator separator.1, if_pos digit]

theorem readDigits_separator (base : Base) (rest : List Char) :
    readDigits base true ('_' :: rest) =
      ((readDigits base false rest).1, (readDigits base false rest).2 + 1) := by
  rw [readDigits, if_pos ⟨rfl, rfl⟩]

/-- Where digits end without fault, the last character read was a digit and no letter follows. -/
theorem readDigits_eq_nil {base : Base} {afterDigit : Bool} {digits rest : List Char}
    (read : readDigits base afterDigit rest = (.ok digits, 0)) :
    digits = [] ∧ afterDigit = true ∧ EndsWord rest := by
  cases rest with
  | nil =>
      cases afterDigit with
      | true =>
          cases read
          exact ⟨rfl, rfl, endsWord_nil⟩
      | false => cases read
  | cons c rest =>
      rw [readDigits] at read
      split at read
      · cases (congrArg Prod.snd read : _ + 1 = 0)
      rename_i noSeparator
      split at read
      · cases (congrArg Prod.snd read : _ + 1 = 0)
      split at read
      · cases read
      · rename_i noLetter
        cases afterDigit with
        | true =>
            cases read
            refine ⟨rfl, rfl, (endsWord_cons c rest).mpr ?_⟩
            simp_all [isNamePart]
        | false => cases read

/-- Further digits are read up to the end of a word. -/
theorem readDigits_further {base : Base} {written digits rest : List Char}
    (further : base.Further written digits) (ends : EndsWord rest) :
    readDigits base true (written ++ rest) = (.ok digits, written.length) := by
  induction further with
  | nil => exact readDigits_append (by simp) (.inr rfl) ends
  | digit digit _ ih =>
      rw [List.cons_append, readDigits_digit (Base.isDigit_iff_hasDigit.mpr digit), ih]
      rfl
  | separated digit _ ih =>
      rw [List.cons_append, List.cons_append, readDigits_separator,
        readDigits_digit (Base.isDigit_iff_hasDigit.mpr digit), ih]
      rfl

theorem further_of_readDigits {base : Base} {afterDigit : Bool} {text digits : List Char}
    {length : Nat} (read : readDigits base afterDigit text = (.ok digits, length)) :
    ∃ written rest, text = written ++ rest ∧ length = written.length ∧ EndsWord rest ∧
      base.Further (if afterDigit then written else '_' :: written) digits := by
  induction text generalizing afterDigit digits length with
  | nil =>
      cases afterDigit with
      | true =>
          cases read
          exact ⟨[], [], rfl, rfl, endsWord_nil, .nil⟩
      | false => cases read
  | cons c text ih =>
      by_cases separator : c = '_' ∧ afterDigit = true
      · obtain ⟨rfl, rfl⟩ := separator
        rw [readDigits_separator, Prod.mk.injEq] at read
        obtain ⟨outcome, rfl⟩ := read
        obtain ⟨written, rest, rfl, count, ends, further⟩ := ih (Prod.ext outcome rfl)
        exact ⟨'_' :: written, rest, rfl, congrArg (· + 1) count, ends, further⟩
      by_cases digit : base.isDigit c = true
      · rw [readDigits_digit digit, Prod.mk.injEq] at read
        obtain ⟨mapped, rfl⟩ := read
        cases outcome : (readDigits base true text).1 with
        | error =>
            rw [outcome] at mapped
            cases mapped
        | ok others =>
            rw [outcome] at mapped
            cases mapped
            obtain ⟨written, rest, rfl, count, ends, further⟩ := ih (Prod.ext outcome rfl)
            have isDigit := Base.isDigit_iff_hasDigit.mp digit
            refine ⟨c :: written, rest, rfl, congrArg (· + 1) count, ends, ?_⟩
            cases afterDigit with
            | true => exact .digit isDigit further
            | false => exact .separated isDigit further
      · have none : length = 0 := by
          rw [readDigits, if_neg separator, if_neg digit] at read
          split at read
          · cases read
          · exact (congrArg Prod.snd read).symm
        subst none
        obtain ⟨rfl, rfl, ends⟩ := readDigits_eq_nil read
        exact ⟨[], c :: text, rfl, rfl, ends, .nil⟩

theorem take_markedBase_mem (text : List Char) :
    text.take (markedBase text).2 ∈ (markedBase text).1.markers := by
  unfold markedBase
  split
  · split
    · rename_i found
      exact Base.mem_markers_of_letter? (by simpa using List.find?_some found)
    · exact List.mem_singleton.mpr rfl
  · exact List.mem_singleton.mpr rfl

/-- The marker of a literal is found before its digits. -/
theorem markedBase_literal {base : Base} {marker written digits rest : List Char} {first : Char}
    (marks : marker ∈ base.markers) (further : base.Further written digits)
    (ends : EndsWord rest) :
    markedBase (marker ++ first :: (written ++ rest)) = (base, marker.length) := by
  cases base with
  | decimal =>
      rw [List.mem_singleton.mp marks]
      exact markedBase_of_noLetter (further.noLetter ends)
  | binary | octal | hexadecimal =>
      rcases List.mem_pair.mp marks with rfl | rfl
      · rfl
      · rfl

theorem numberLiteral_eq_iff {text digits : List Char} {base : Base} {length : Nat} :
    numberLiteral text = ⟨.number base (String.ofList digits), length⟩ ↔
      (markedBase text).1 = base ∧
        ∃ count, readDigits base false (text.drop (markedBase text).2) = (.ok digits, count) ∧
          length = (markedBase text).2 + count := by
  unfold numberLiteral
  obtain ⟨marked, reached⟩ := markedBase text
  dsimp only
  constructor
  · intro read
    split at read
    · rename_i found count outcome
      rw [Lexeme.mk.injEq, Kind.number.injEq, String.ofList_inj] at read
      obtain ⟨⟨rfl, rfl⟩, rfl⟩ := read
      exact ⟨rfl, count, outcome, rfl⟩
    · split at read <;> cases read
  · rintro ⟨rfl, count, outcome, rfl⟩
    rw [outcome]

/-- A number is read from a literal of its base, and no word goes on behind the literal. -/
theorem numberLiteral_eq_number {text digits : List Char} {base : Base} {length : Nat} :
    numberLiteral text = ⟨.number base (String.ofList digits), length⟩ ↔
      ∃ written rest, text = written ++ rest ∧ base.Literal written digits ∧
        length = written.length ∧ EndsWord rest := by
  rw [numberLiteral_eq_iff]
  constructor
  · rintro ⟨rfl, count, outcome, rfl⟩
    have marks := take_markedBase_mem text
    have whole := List.take_append_drop (markedBase text).2 text
    have covers : (text.take (markedBase text).2).length = (markedBase text).2 := by
      rw [List.length_take, Nat.min_eq_left (markedBase_length_le text)]
    obtain ⟨written, rest, behind, rfl, ends, further⟩ := further_of_readDigits outcome
    cases further with
    | digit underscore =>
        rw [← Base.isDigit_iff_hasDigit, Base.not_isDigit_underscore] at underscore
        cases underscore
    | @separated first written digits digit further =>
        refine ⟨_ ++ first :: written, rest, ?_, .mk marks digit further, ?_, ends⟩
        · rw [List.append_assoc, ← behind, whole]
        · rw [List.length_append, covers]
  · rintro ⟨_, rest, rfl, ⟨marks, digit, further⟩, rfl, ends⟩
    rw [List.append_assoc, List.cons_append, markedBase_literal marks further ends,
      List.drop_left, readDigits_digit (Base.isDigit_iff_hasDigit.mpr digit),
      readDigits_further further ends]
    exact ⟨rfl, _, rfl, List.length_append⟩

theorem numberLiteral_cases (text : List Char) :
    (∃ base digits, (numberLiteral text).kind = .number base digits) ∨
      (numberLiteral text).kind.isMalformed = true := by
  unfold numberLiteral
  dsimp only
  split
  · exact .inl ⟨_, _, rfl⟩
  · split <;> exact .inr rfl

theorem ofDigits?_of_numberLiteral {text : List Char} {base : Base} {digits : String}
    (read : (numberLiteral text).kind = .number base digits) :
    (Number.ofDigits? base digits.toList).isSome = true := by
  have whole : numberLiteral text =
      ⟨.number base (String.ofList digits.toList), (numberLiteral text).length⟩ := by
    rw [String.ofList_toList, ← read]
  obtain ⟨written, rest, -, literal, -⟩ := numberLiteral_eq_number.mp whole
  generalize digits.toList = digits at literal ⊢
  obtain ⟨marks, digit, further⟩ := literal
  exact Option.isSome_iff_exists.mpr ⟨_, Number.ofDigits?_eq_some.mpr
    ⟨List.cons_ne_nil _ _, List.forall_mem_cons.mpr ⟨digit, further.digits⟩, rfl⟩⟩

theorem ofDigits?_of_read {text : List Char} {base : Base} {digits : String}
    (read : (Lexeme.read text).kind = .number base digits) :
    (Number.ofDigits? base digits.toList).isSome = true := by
  have begins := read_begins text
  rw [read] at begins
  obtain ⟨first, rest, rfl, digit⟩ := begins
  rw [read_of_isDigit rest digit] at read
  exact ofDigits?_of_numberLiteral read

end Lexeme

theorem ofDigits?_of_mem {text : List Char} {base : Base} {digits : String}
    (member : .number base digits ∈ kindsOf text) :
    (Number.ofDigits? base digits.toList).isSome = true := by
  have all : ∀ kind ∈ kindsOf text, ∀ base digits, kind = .number base digits →
      (Number.ofDigits? base digits.toList).isSome = true := by
    apply kindsOf_induction (motive := fun whole : List Kind =>
      ∀ kind ∈ whole, ∀ base digits, kind = .number base digits →
        (Number.ofDigits? base digits.toList).isSome = true)
    · simp
    · intro text kinds _ ih
      exact List.forall_mem_cons.mpr ⟨fun base digits => Lexeme.ofDigits?_of_read, ih⟩
  exact all _ member base digits rfl

end ContractExpr
