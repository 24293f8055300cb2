import ContractExpr.Proofs.Text.Items
import ContractExpr.Proofs.Token.Numbers

/-! # Tokens read again

A token is read again from the characters it was read from, whatever followed them, when nothing
behind them now would belong to it. At the end of a text and before a blank this is always so, but
for comments that end with their line.
-/

set_option autoImplicit false

namespace ContractExpr

open Text Token

/-! ## What may stand behind a token -/

def Parted (rest : List Char) : Prop := ∀ c, rest.head? = some c → isBlank c = true

def EndsLine (rest : List Char) : Prop := ∀ c, rest.head? = some c → c = '\n'

/-- What a token of the given characters asks of the text behind it: to begin with no character that
would belong to the token. -/
def Allows (inside rest : List Char) : Kind → Prop
  | .symbol mark => ∀ c, rest.head? = some c → mark.extendedBy c = false
  | .comment _ => ['/', '/'] <+: inside → EndsLine rest
  | .string _ => True
  | _ => EndsWord rest

theorem parted_nil : Parted [] := by
  simp [Parted]

theorem parted_cons {c : Char} (blank : isBlank c = true) (rest : List Char) :
    Parted (c :: rest) := by
  simpa [Parted] using blank

theorem Parted.endsWord {rest : List Char} (parted : Parted rest) : EndsWord rest := by
  intro c head
  apply Bool.eq_false_iff.mpr
  intro part
  have blank := parted c head
  rw [isBlank_of_isNamePart part] at blank
  cases blank

namespace Symbol

theorem length_of_ofChars? {text : List Char} {mark : Symbol} (found : ofChars? text = some mark) :
    mark.chars = text ∧ text.length ≤ 2 := by
  have spelled : mark.chars = text := by
    simpa [ofChars?] using List.find?_some found
  refine ⟨spelled, ?_⟩
  rw [← spelled]
  cases mark <;> decide

theorem extendedBy_of_isBlank {mark : Symbol} {c : Char} (blank : isBlank c = true) :
    mark.extendedBy c = false := by
  have noBlank (other : Symbol) : other.chars.all (fun c => !isBlank c) = true := by
    cases other <;> decide
  have unknown : ofChars? (mark.chars ++ [c]) = none := by
    rw [ofChars?, List.find?_eq_none]
    intro other _ same
    rw [beq_iff_eq] at same
    have member : c ∈ other.chars := by simp [same]
    have solid := List.all_eq_true.mp (noBlank other) c member
    rw [blank] at solid
    cases solid
  have noSlash : c ≠ '/' := by
    rintro rfl
    cases blank
  have noStar : c ≠ '*' := by
    rintro rfl
    cases blank
  simp [extendedBy, unknown, noSlash, noStar]

end Symbol

theorem allows_of_parted {inside rest : List Char} {kind : Kind}
    (noComment : kind.isComment = false) (parted : Parted rest) : Allows inside rest kind := by
  cases kind with
  | comment => cases noComment
  | string => trivial
  | symbol => exact fun c head => Symbol.extendedBy_of_isBlank (parted c head)
  | _ => exact parted.endsWord

theorem allows_ofWord {inside rest : List Char} {word : String} :
    Allows inside rest (Kind.ofWord word) ↔ EndsWord rest := by
  unfold Kind.ofWord Kind.keyword?
  repeat' split
  all_goals rfl

/-! ## Runs of characters -/

section Runs

variable {holds : Char → Bool} {inside rest : List Char}

theorem takeWhile_eq_left (each : ∀ c ∈ inside, holds c = true)
    (stops : ∀ c, rest.head? = some c → holds c = false) :
    (inside ++ rest).takeWhile holds = inside := by
  have none : rest.takeWhile holds = [] := by
    cases rest with
    | nil => rfl
    | cons c rest => exact List.takeWhile_cons_of_neg (by simp [stops c rfl])
  rw [List.takeWhile_append_of_pos each, none, List.append_nil]

/-- A run that has as many characters as stand in front is made of these, and ends there. -/
theorem stops_of_takeWhile (covers : ((inside ++ rest).takeWhile holds).length = inside.length) :
    (∀ c ∈ inside, holds c = true) ∧ ∀ c, rest.head? = some c → holds c = false := by
  have taken : (inside ++ rest).takeWhile holds = inside := by
    have front := List.prefix_iff_eq_take.mp
      (List.takeWhile_prefix (l := inside ++ rest) holds)
    rwa [covers, List.take_left] at front
  have each : ∀ c ∈ inside, holds c = true := by
    rw [← taken]
    exact List.all_eq_true.mp List.all_takeWhile
  refine ⟨each, fun c head => ?_⟩
  rw [List.takeWhile_append_of_pos each] at taken
  have none : rest.takeWhile holds = [] :=
    List.append_cancel_left (taken.trans (List.append_nil inside).symm)
  cases rest with
  | nil => cases head
  | cons first rest =>
      cases head
      refine Bool.eq_false_iff.mpr fun more => ?_
      rw [List.takeWhile_cons_of_pos more] at none
      cases none

end Runs

namespace Lexeme

variable {inside rest : List Char}

/-- A token is closed when its characters are read as it before every text that it allows, and the
text that follows them is one. -/
structure Closed (inside rest : List Char) (kind : Kind) : Prop where
  allows : Allows inside rest kind
  again : ∀ rest', Allows inside rest' kind →
    Lexeme.read (inside ++ rest') = ⟨kind, inside.length⟩

/-! ## Comments -/

/-- What a comment shows depends on the rest of its line only, and so does its length. -/
theorem lineComment_eq :
    ∃ shown : List Char → List Char, ∀ text, lineComment text =
      ⟨.comment (String.ofList (shown (text.takeWhile (· != '\n')))),
        2 + (text.takeWhile (· != '\n')).length⟩ := by
  refine ⟨fun line => line.drop (if line.head? = some ' ' then 1 else 0), fun text => ?_⟩
  cases text with
  | nil => rfl
  | cons c rest =>
      by_cases space : c = ' '
      · subst space
        simp [lineComment]
        omega
      · by_cases lineBreak : c = '\n'
        · subst lineBreak
          rfl
        · simp [lineComment, space, lineBreak]

theorem lineComment_closed {kind : Kind}
    (read : lineComment (inside ++ rest) = ⟨kind, inside.length + 2⟩) :
    Closed ('/' :: '/' :: inside) rest kind := by
  obtain ⟨shown, eq⟩ := lineComment_eq
  rw [eq] at read
  obtain ⟨rfl, length⟩ := Lexeme.mk.inj read
  rw [Nat.add_comm, Nat.add_right_cancel_iff] at length
  obtain ⟨each, stops⟩ := stops_of_takeWhile length
  have whole := takeWhile_eq_left each stops
  refine ⟨fun _ c head => by simpa using stops c head, fun rest' ends => ?_⟩
  have stops' : ∀ c, rest'.head? = some c → (c != '\n') = false := fun c head => by
    simpa using ends ⟨inside, rfl⟩ c head
  have again := takeWhile_eq_left each stops'
  show lineComment (inside ++ rest') = _
  rw [eq, again, whole, Nat.add_comm]
  rfl

theorem blockContent?_cons {c d : Char} (text : List Char) (noMark : ¬(c = '*' ∧ d = '/')) :
    blockContent? (c :: d :: text) = (blockContent? (d :: text)).map (c :: ·) := by
  rw [blockContent?.eq_def]
  split
  · contradiction
  · rename_i same
    cases same
    exact absurd ⟨rfl, rfl⟩ noMark
  · rename_i same
    cases same
    rfl

theorem blockContent?_reread {content : List Char}
    (read : blockContent? (inside ++ rest) = some content)
    (length : content.length + 2 = inside.length) (rest' : List Char) :
    blockContent? (inside ++ rest') = some content := by
  induction inside generalizing content with
  | nil => cases length
  | cons c inside ih =>
      cases inside with
      | nil => cases length
      | cons d inside =>
          by_cases isMark : c = '*' ∧ d = '/'
          · obtain ⟨rfl, rfl⟩ := isMark
            cases read
            rfl
          · simp only [List.cons_append] at read ih ⊢
            rw [blockContent?_cons _ isMark, Option.map_eq_some_iff] at read ⊢
            obtain ⟨others, found, rfl⟩ := read
            exact ⟨others, ih found (Nat.succ.inj length), rfl⟩

theorem blockComment_closed {kind : Kind}
    (read : blockComment (inside ++ rest) = ⟨kind, inside.length + 2⟩)
    (sound : kind.isMalformed = false) : Closed ('/' :: '*' :: inside) rest kind := by
  unfold blockComment at read
  split at read
  · rename_i content found
    obtain ⟨rfl, length⟩ := Lexeme.mk.inj read
    refine ⟨fun slashes => by simp at slashes, fun rest' _ => ?_⟩
    show blockComment (inside ++ rest') = _
    rw [blockComment, blockContent?_reread found (by omega) rest']
    exact read
  · obtain ⟨rfl, _⟩ := Lexeme.mk.inj read
    cases sound

/-! ## Literals -/

theorem numberLiteral_closed {first : Char} {kind : Kind} (digit : first.isDigit = true)
    (read : numberLiteral (first :: inside ++ rest) = ⟨kind, (first :: inside).length⟩)
    (sound : kind.isMalformed = false) : Closed (first :: inside) rest kind := by
  have cases := numberLiteral_cases (first :: inside ++ rest)
  rw [read] at cases
  rcases cases with ⟨base, digits, rfl⟩ | malformed
  · rw [← String.ofList_toList (s := digits)] at read ⊢
    obtain ⟨written, behind, whole, literal, length, ends⟩ := numberLiteral_eq_number.mp read
    obtain ⟨rfl, rfl⟩ := List.append_inj whole length
    refine ⟨ends, fun rest' ends' => ?_⟩
    rw [List.cons_append, read_of_isDigit _ digit]
    exact numberLiteral_eq_number.mpr ⟨first :: inside, rest', rfl, literal, rfl, ends'⟩
  · rw [malformed] at sound
    cases sound

theorem stringLiteral_closed {kind : Kind}
    (read : stringLiteral (inside ++ rest) = ⟨kind, inside.length + 1⟩)
    (sound : kind.isMalformed = false) : Closed ('"' :: inside) rest kind := by
  unfold stringLiteral at read
  split at read
  · rename_i content length body
    obtain ⟨written, others, whole, items, lengths⟩ := Quoted.readBody_eq_ok.mp body
    obtain ⟨rfl, reaches⟩ := Lexeme.mk.inj read
    have same : written ++ ['"'] = inside := by
      have front : inside ++ rest = written ++ ['"'] ++ others := by simp [whole]
      exact (List.append_inj_left front (by simp; omega)).symm
    refine ⟨trivial, fun rest' _ => ?_⟩
    have again : Quoted.readBody (inside ++ rest') = (.ok content, length) :=
      Quoted.readBody_eq_ok.mpr ⟨written, rest', by simp [← same], items, lengths⟩
    show stringLiteral (inside ++ rest') = _
    rw [stringLiteral, again]
    exact read
  · obtain ⟨rfl, _⟩ := Lexeme.mk.inj read
    cases sound

/-! ## Words and symbols -/

theorem word_closed {first : Char} {kind : Kind} (start : isNameStart first = true)
    (read : word (first :: inside ++ rest) = ⟨kind, (first :: inside).length⟩) :
    Closed (first :: inside) rest kind := by
  unfold word at read
  obtain ⟨rfl, length⟩ := Lexeme.mk.inj read
  obtain ⟨parts, stops⟩ := stops_of_takeWhile length
  have whole := takeWhile_eq_left parts stops
  refine ⟨allows_ofWord.mpr stops, fun rest' allows => ?_⟩
  have again := takeWhile_eq_left parts (allows_ofWord.mp allows)
  have read' : Lexeme.read (first :: inside ++ rest') = word (first :: inside ++ rest') :=
    read_of_isNameStart _ start
  rw [read', word, again, whole]

/-- The longest symbol does not go on with what follows it. -/
theorem not_extendedBy_of_longest? {first : Char} {mark : Symbol}
    (longest : Symbol.longest? first (inside ++ rest) = some mark)
    (length : mark.chars.length = inside.length + 1)
    (noComment : first = '/' → ∀ c, (inside ++ rest).head? = some c → c ≠ '/' ∧ c ≠ '*') :
    ∀ c, rest.head? = some c → mark.extendedBy c = false := by
  intro c head
  rcases Option.or_eq_some_iff.mp longest with two | ⟨noTwo, one⟩
  · obtain ⟨spelled, _⟩ := Symbol.length_of_ofChars? two
    cases inside with
    | nil =>
        -- the symbol would take the character behind it
        cases rest with
        | nil => cases head
        | cons d rest => simp [spelled] at length
    | cons second inside =>
        have unknown : Symbol.ofChars? (mark.chars ++ [c]) = none := by
          rw [Option.eq_none_iff_forall_ne_some]
          intro other found
          have short := (Symbol.length_of_ofChars? found).2
          rw [List.length_append, length, List.length_cons, List.length_singleton] at short
          omega
        have noSlash : mark ≠ .slash := by
          rintro rfl
          simp [Symbol.chars] at length
        simp [Symbol.extendedBy, unknown, noSlash]
  · obtain ⟨spelled, _⟩ := Symbol.length_of_ofChars? one
    obtain rfl : inside = [] := by simpa [spelled] using length
    cases rest with
    | nil => cases head
    | cons d rest =>
        cases head
        have unknown : Symbol.ofChars? (mark.chars ++ [c]) = none := by simpa [spelled] using noTwo
        have noMark : mark = .slash → c ≠ '/' ∧ c ≠ '*' := by
          rintro rfl
          exact noComment (List.head_eq_of_cons_eq spelled).symm c rfl
        by_cases slash : mark = .slash
        · obtain ⟨notSlash, notStar⟩ := noMark slash
          simp [Symbol.extendedBy, unknown, notSlash, notStar]
        · simp [Symbol.extendedBy, unknown, slash]

theorem symbol_closed {first : Char} {kind : Kind}
    (read : symbol first (inside ++ rest) = ⟨kind, (first :: inside).length⟩)
    (noComment : first = '/' → ∀ c, (inside ++ rest).head? = some c → c ≠ '/' ∧ c ≠ '*')
    (sound : kind.isMalformed = false) : Closed (first :: inside) rest kind := by
  unfold symbol at read
  split at read
  · rename_i mark longest
    obtain ⟨rfl, length⟩ := Lexeme.mk.inj read
    have spelled := List.prefix_iff_eq_take.mp (longest?_begins longest)
    rw [length, ← List.cons_append, List.take_left] at spelled
    refine ⟨not_extendedBy_of_longest? longest length noComment, fun rest' ends => ?_⟩
    rw [← spelled]
    exact read_symbol_of_ends ends
  · obtain ⟨rfl, _⟩ := Lexeme.mk.inj read
    cases sound

/-! ## All tokens -/

/-- Every token that is read is closed. -/
theorem read_closed {kind : Kind} (begins : inside ≠ [])
    (read : Lexeme.read (inside ++ rest) = ⟨kind, inside.length⟩)
    (sound : kind.isMalformed = false) : Closed inside rest kind := by
  have comment {mark : Char} {behind : List Char} {lexeme : Lexeme} (long : 2 ≤ lexeme.length)
      (same : inside ++ rest = '/' :: mark :: behind) (read : lexeme = ⟨kind, inside.length⟩) :
      ∃ others, inside = '/' :: mark :: others ∧ behind = others ++ rest := by
    rw [read] at long
    match inside, long with
    | first :: second :: others, _ =>
        cases same
        exact ⟨others, rfl, rfl⟩
  have long (text : List Char) : 2 ≤ (blockComment text).length := by
    unfold blockComment
    split
    · exact Nat.le_add_left 2 _
    · exact Nat.le_add_right 2 _
  obtain ⟨first, others, rfl⟩ := List.exists_cons_of_ne_nil begins
  rw [Lexeme.read.eq_def] at read
  split at read
  · contradiction
  · rename_i same
    obtain ⟨_, inside, rfl⟩ := comment (by simp [lineComment]; omega) same read
    cases inside
    exact lineComment_closed read
  · rename_i same
    obtain ⟨_, inside, rfl⟩ := comment (long _) same read
    cases inside
    exact blockComment_closed read sound
  · rename_i same
    cases same
    exact stringLiteral_closed read sound
  · rename_i noLine noBlock noQuote same
    cases same
    split at read
    · rename_i digit
      exact numberLiteral_closed digit read sound
    split at read
    · rename_i start
      exact word_closed start read
    · refine symbol_closed read (fun slash c head => ?_) sound
      obtain ⟨behind, text⟩ := List.head?_eq_some_iff.mp head
      refine ⟨?_, ?_⟩
      · rintro rfl
        exact noLine behind slash text
      · rintro rfl
        exact noBlock behind slash text

end Lexeme

/-- A token keeps its kind before any text that it allows. -/
theorem kindsOf_reread {inside rest rest' : List Char} {kind : Kind}
    (begins : ∃ first others, inside = first :: others ∧ isBlank first = false)
    (read : Lexeme.read (inside ++ rest) = ⟨kind, inside.length⟩)
    (sound : kind.isMalformed = false) (noEnd : kind.isEnd = false)
    (allows : Allows inside rest' kind) : kindsOf (inside ++ rest') = kind :: kindsOf rest' := by
  obtain ⟨first, others, rfl, noBlank⟩ := begins
  have again := (Lexeme.read_closed (by simp) read sound).again rest' allows
  exact (kindsOf_lexeme noBlank again noEnd).trans
    (congrArg (fun left => kind :: kindsOf left) List.drop_left)

end ContractExpr
