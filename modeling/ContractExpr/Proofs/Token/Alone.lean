import ContractExpr.Proofs.Token.Rereading
import ContractExpr.Proofs.Token.Tiling

/-! # Tokens on their own

A token is read from its own characters as it was read in its source, also where it is malformed:
what stands behind a token decides where it ends and nothing else. So the text of a token is a
source of its own that is this one token.
-/

set_option autoImplicit false

namespace ContractExpr

open Text Token

/-! ## String literals -/

namespace Text.Quoted

theorem readCodePoint_closed {digits : List Char}
    (each : ∀ c ∈ digits, Base.hexadecimal.isDigit c = true) (rest : List Char) :
    readCodePoint ('\x7b' :: (digits ++ '\x7d' :: rest)) =
      match character? digits with
      | some c => (.ok c, digits.length + 2)
      | none => (.error (.invalidUnicodeEscape (String.ofList digits)), digits.length + 2) := by
  have taken : (digits ++ '\x7d' :: rest).takeWhile Base.hexadecimal.isDigit = digits :=
    takeWhile_eq_left each fun c head => by cases head; decide
  rw [readCodePoint, taken, List.drop_left]
  rfl

theorem readCodePoint_unclosed {digits rest : List Char}
    (each : ∀ c ∈ digits, Base.hexadecimal.isDigit c = true)
    (ends : ∀ c, rest.head? = some c → Base.hexadecimal.isDigit c = false ∧ c ≠ '\x7d') :
    readCodePoint ('\x7b' :: (digits ++ rest)) =
      (.error .unterminatedUnicodeEscape, digits.length + 1) := by
  have taken : (digits ++ rest).takeWhile Base.hexadecimal.isDigit = digits :=
    takeWhile_eq_left each fun c head => (ends c head).1
  rw [readCodePoint, taken, List.drop_left]
  split
  · exact absurd rfl (ends _ rfl).2
  · rfl

theorem codePoint_cases (text : List Char) :
    ∃ digits rest, text = digits ++ rest ∧
      (∀ c ∈ digits, Base.hexadecimal.isDigit c = true) ∧
      ((∃ behind, rest = '\x7d' :: behind) ∨
        ∀ c, rest.head? = some c → Base.hexadecimal.isDigit c = false ∧ c ≠ '\x7d') := by
  refine ⟨_, _, (List.takeWhile_append_dropWhile (p := Base.hexadecimal.isDigit)).symm,
    List.all_eq_true.mp List.all_takeWhile, ?_⟩
  cases behind : text.dropWhile Base.hexadecimal.isDigit with
  | nil => exact .inr (by simp)
  | cons c others =>
      by_cases closes : c = '\x7d'
      · exact .inl ⟨others, by rw [closes]⟩
      · have first := List.head?_dropWhile_not Base.hexadecimal.isDigit text
        rw [behind] at first
        exact .inr fun d head => by cases head; exact ⟨first, closes⟩

theorem readCodePoint_take (text : List Char) :
    readCodePoint (text.take (readCodePoint text).2) = readCodePoint text := by
  cases text with
  | nil => rfl
  | cons c behind =>
      by_cases brace : c = '\x7b'
      · subst brace
        obtain ⟨digits, rest, rfl, each, ⟨behind, rfl⟩ | ends⟩ := codePoint_cases behind
        · have length : (readCodePoint ('\x7b' :: (digits ++ '\x7d' :: behind))).2 =
              digits.length + 2 := by
            rw [readCodePoint_closed each]
            split <;> rfl
          have taken : ('\x7b' :: (digits ++ '\x7d' :: behind)).take (digits.length + 2) =
              '\x7b' :: (digits ++ '\x7d' :: []) := by
            simp [List.take_append, List.take_of_length_le]
          rw [length, taken, readCodePoint_closed each, readCodePoint_closed each]
        · rw [readCodePoint_unclosed each ends]
          have taken : ('\x7b' :: (digits ++ rest)).take (digits.length + 1) =
              '\x7b' :: (digits ++ []) := by simp
          rw [taken, readCodePoint_unclosed each (by simp)]
      · have unopened : readCodePoint (c :: behind) = (.error .unopenedUnicodeEscape, 0) := by
          unfold readCodePoint
          split
          · rename_i same
            cases same
            exact absurd rfl brace
          · rfl
        rw [unopened]
        rfl

theorem readEscape_take (text : List Char) :
    readEscape (text.take (readEscape text).2) = readEscape text := by
  cases text with
  | nil => rfl
  | cons c rest =>
      by_cases point : c = 'u'
      · subst point
        simp only [readEscape, List.take_succ_cons, readCodePoint_take]
      · have single : readEscape (c :: rest) = readEscape [c] ∧ (readEscape [c]).2 = 1 := by
          unfold readEscape
          split <;> simp_all
        rw [single.1, single.2]
        rfl

theorem readBody_take_item {written : List Char} {c : Char} (item : Item written c)
    {rest : List Char} (again : readBody (rest.take (readBody rest).2) = readBody rest) :
    readBody ((written ++ rest).take (readBody (written ++ rest)).2) =
      readBody (written ++ rest) := by
  have length : (readBody (written ++ rest)).2 = written.length + (readBody rest).2 := by
    rw [readBody_item item, push]
  rw [length, List.take_length_add_append, readBody_item item, readBody_item item, again]

/-- A literal is read again from what was taken for it, with its content or its fault. -/
theorem readBody_take (text : List Char) :
    readBody (text.take (readBody text).2) = readBody text := by
  -- by the length of the text, since an escape takes several characters
  induction size : text.length using Nat.strongRecOn generalizing text with
  | ind size ih =>
      subst size
      cases text with
      | nil => rw [List.take_nil]
      | cons c rest =>
          by_cases lineBreak : c = '\n'
          · simp [readBody, lineBreak]
          by_cases quote : c = '"'
          · simp [readBody, quote]
          by_cases backslash : c = '\\'
          · subst backslash
            have again := readEscape_take rest
            rcases escape : readEscape rest with ⟨error | meant, taken⟩
            · rw [escape] at again
              have read (others : List Char) (fault : readEscape others = (.error error, taken)) :
                  readBody ('\\' :: others) = (.error error, taken + 1) := by
                rw [readBody, if_neg lineBreak, if_neg quote, if_pos rfl, fault]
              rw [read rest escape, List.take_succ_cons]
              exact read _ again
            · obtain ⟨written, further, rfl, rfl, item⟩ := item_of_readEscape escape
              have shorter : further.length < ('\\' :: (written ++ further)).length := by
                simp only [List.length_cons, List.length_append]
                omega
              exact readBody_take_item item (ih _ shorter further rfl)
          · exact readBody_take_item (.plain lineBreak quote backslash)
              (ih _ (Nat.lt_succ_self _) rest rfl)

end Text.Quoted

namespace Lexeme

/-! ## Numbers -/

theorem readDigits_take (base : Base) (afterDigit : Bool) (text : List Char) :
    readDigits base afterDigit (text.take (readDigits base afterDigit text).2) =
      readDigits base afterDigit text := by
  induction text generalizing afterDigit with
  | nil => rw [List.take_nil]
  | cons c rest ih =>
      by_cases separator : c = '_' ∧ afterDigit = true
      · simp [readDigits, separator, ih]
      by_cases digit : base.isDigit c = true
      · simp [readDigits, separator, digit, ih]
      by_cases foreign : c.isAlphanum = true
      · simp [readDigits, separator, digit, foreign]
      · simp [readDigits, separator, digit, foreign]

theorem markedBase_cons_cons (first second : Char) (rest : List Char) :
    markedBase (first :: second :: rest) = markedBase [first, second] := by
  unfold markedBase
  split <;> simp_all

theorem markedBase_of_short {text : List Char} (short : (markedBase text).2 ≤ 1) :
    markedBase text = (.decimal, 0) := by
  unfold markedBase at short ⊢
  split at short
  · split at short
    · cases Nat.not_succ_le_self 1 short
    · rfl
  · rfl

theorem markedBase_take {text : List Char} {count : Nat} (covers : (markedBase text).2 ≤ count) :
    markedBase (text.take count) = markedBase text := by
  match text, count with
  | [], _ => rw [List.take_nil]
  | _ :: _, 0 => exact (markedBase_of_short (Nat.le_succ_of_le covers)).symm
  | _ :: _, 1 => exact (markedBase_of_noLetter (by simp)).trans (markedBase_of_short covers).symm
  | [_], _ + 2 => rfl
  | first :: second :: rest, count + 2 =>
      exact (markedBase_cons_cons ..).trans (markedBase_cons_cons ..).symm

theorem numberLiteral_congr {text other : List Char} (marker : markedBase other = markedBase text)
    (digits : readDigits (markedBase text).1 false (other.drop (markedBase text).2) =
      readDigits (markedBase text).1 false (text.drop (markedBase text).2))
    (taken : other.take (numberLiteral text).length = text.take (numberLiteral text).length) :
    numberLiteral other = numberLiteral text := by
  rw [numberLiteral_length] at taken
  unfold numberLiteral
  rw [marker]
  generalize markedBase text = marked at digits taken ⊢
  obtain ⟨base, reached⟩ := marked
  dsimp only at digits taken ⊢
  rw [digits]
  generalize readDigits base false (text.drop reached) = found at taken ⊢
  obtain ⟨outcome, length⟩ := found
  cases outcome with
  | ok => rfl
  | error fault => simp only [taken]

theorem numberLiteral_take (text : List Char) :
    numberLiteral (text.take (numberLiteral text).length) = numberLiteral text := by
  have length := numberLiteral_length text
  refine numberLiteral_congr (markedBase_take (Nat.le.intro length.symm)) ?_
    (by rw [List.take_take, Nat.min_self])
  rw [List.drop_take, length, Nat.add_sub_cancel_left]
  exact readDigits_take _ _ _

/-! ## All tokens -/

theorem allows_nil (inside : List Char) (kind : Kind) : Allows inside [] kind := by
  cases kind with
  | comment => exact fun _ c head => by cases head
  | _ => exact allows_of_parted rfl parted_nil

/-- A token that is sound does not need what stands behind it. -/
theorem read_take_of_sound {text : List Char} (begins : text ≠ [])
    (sound : (read text).kind.isMalformed = false) :
    read (text.take (read text).length) = read text := by
  obtain ⟨first, rest, rfl⟩ := List.exists_cons_of_ne_nil begins
  generalize cut : (first :: rest).take (read (first :: rest)).length = inside
  have length : inside.length = (read (first :: rest)).length := by
    rw [← cut, List.length_take]
    exact Nat.min_eq_left (read_length_le _)
  have solid : inside ≠ [] := by
    rw [← List.length_pos_iff, length]
    exact read_length_pos first rest
  have whole : inside ++ (first :: rest).drop (read (first :: rest)).length = first :: rest := by
    rw [← cut, List.take_append_drop]
  have read' : read (inside ++ (first :: rest).drop (read (first :: rest)).length) =
      ⟨(read (first :: rest)).kind, inside.length⟩ := by rw [whole, length]
  have again := (read_closed solid read' sound).again [] (allows_nil _ _)
  rwa [List.append_nil, length] at again

theorem stringLiteral_length (rest : List Char) :
    (stringLiteral rest).length = (Quoted.readBody rest).2 + 1 := by
  unfold stringLiteral
  split <;> rename_i same <;> rw [same, Nat.add_comm]

theorem blockComment_length_of_malformed {rest : List Char}
    (malformed : (blockComment rest).kind.isMalformed = true) :
    (blockComment rest).length = rest.length + 2 := by
  unfold blockComment at malformed ⊢
  split at malformed
  · cases malformed
  · exact Nat.add_comm _ _

theorem isMalformed_ofWord (word : String) : (Kind.ofWord word).isMalformed = false := by
  unfold Kind.ofWord Kind.keyword?
  repeat' split
  all_goals rfl

/-- A character that begins no token is refused, whatever stands behind it. -/
theorem read_of_unknown {first : Char} {rest : List Char}
    (unknown : Symbol.longest? first rest = none) (noDigit : first.isDigit = false)
    (noWord : isNameStart first = false) (noQuote : first ≠ '"') :
    read (first :: rest) = ⟨.malformed (.unexpectedCharacter first), 1⟩ := by
  have noSlash : first ≠ '/' := by
    rintro rfl
    have single := (Option.or_eq_none_iff.mp unknown).2
    cases single
  have read : read (first :: rest) = symbol first rest := by
    unfold Lexeme.read
    split <;> simp_all
  rw [read, symbol, unknown]

theorem longest?_nil {first : Char} {rest : List Char}
    (unknown : Symbol.longest? first rest = none) : Symbol.longest? first [] = none := by
  have single := (Option.or_eq_none_iff.mp unknown).2
  rw [Symbol.longest?, List.take_nil, single]
  rfl

/-- A faulty token is read from its characters with its fault. -/
theorem read_take_of_malformed {text : List Char}
    (malformed : (read text).kind.isMalformed = true) :
    read (text.take (read text).length) = read text := by
  unfold read at malformed
  split at malformed
  · cases malformed
  · cases malformed
  · rename_i rest
    have whole : (read ('/' :: '*' :: rest)).length = ('/' :: '*' :: rest).length :=
      blockComment_length_of_malformed malformed
    rw [whole, List.take_length]
  · rename_i rest
    have length : (read ('"' :: rest)).length = (Quoted.readBody rest).2 + 1 :=
      stringLiteral_length rest
    rw [length, List.take_succ_cons]
    show stringLiteral _ = stringLiteral rest
    rw [stringLiteral, Quoted.readBody_take, stringLiteral]
  · rename_i first rest noLine noBlock noQuote
    split at malformed
    · rename_i digit
      have again := numberLiteral_take (first :: rest)
      obtain ⟨count, reaches⟩ :=
        Nat.exists_eq_add_one.mpr (numberLiteral_length_pos first rest digit)
      rw [read_of_isDigit rest digit]
      rw [reaches, List.take_succ_cons] at again ⊢
      rw [read_of_isDigit _ digit, again]
    · rename_i noDigit
      split at malformed
      · rw [word, isMalformed_ofWord] at malformed
        cases malformed
      · rename_i noWord
        unfold symbol at malformed
        split at malformed
        · cases malformed
        · rename_i unknown
          have refused (others : List Char) (unknown : Symbol.longest? first others = none) :
              read (first :: others) = ⟨.malformed (.unexpectedCharacter first), 1⟩ :=
            read_of_unknown unknown (by simpa using noDigit) (by simpa using noWord)
              noQuote
          rw [refused rest unknown]
          exact refused [] (longest?_nil unknown)

/-- A token is read again from the characters that it takes. -/
theorem read_take (text : List Char) : read (text.take (read text).length) = read text := by
  cases text with
  | nil => rfl
  | cons first rest =>
      cases sound : (read (first :: rest)).kind.isMalformed with
      | false => exact read_take_of_sound (List.cons_ne_nil first rest) sound
      | true => exact read_take_of_malformed sound

end Lexeme

/-! ## Sources of one token -/

/-- The source is one token of the kind, which covers it, and the end token. -/
def Alone (source : String) (kind : Kind) : Prop :=
  ∃ last, tokenize source = [⟨kind, ⟨0, source.utf8ByteSize, 1, 1⟩⟩, last] ∧
    last.kind = .endOfInput

theorem Span.ofRun_nil (inside : List Char) :
    Span.ofRun [] inside = ⟨0, String.utf8Len inside, 1, 1⟩ := by
  rw [ofRun, between, List.nil_append, Position.advance_start inside]
  rfl

theorem utf8Len_toList (source : String) : String.utf8Len source.toList = source.utf8ByteSize := by
  rw [← String.utf8ByteSize_ofList, String.ofList_toList]

theorem tokenize_front {source : String} {first : Char} {rest : List Char}
    (text : source.toList = first :: rest) (solid : isBlank first = false) :
    ∃ kind inside behind others, first :: rest = inside ++ behind ∧
      Lexeme.read (first :: rest) = ⟨kind, inside.length⟩ ∧
      tokenize source = ⟨kind, ⟨0, String.utf8Len inside, 1, 1⟩⟩ :: others ∧
      Tiled inside behind others := by
  have tiled : Tiled [] source.toList (tokenize source) := (Reader.ofString source).tiled [] rfl
  rw [text] at tiled
  generalize tokenize source = tokens at tiled
  generalize whole : first :: rest = text at tiled ⊢
  cases tiled with
  | last blank isEnd span =>
      subst whole
      rw [blank first List.mem_cons_self] at solid
      cases solid
  | @more _ _ token others gap inside behind same blank begins read noEnd span tiled =>
      cases gap with
      | nil =>
          rw [same]
          have placed : token.span = ⟨0, String.utf8Len inside, 1, 1⟩ :=
            span.trans (Span.ofRun_nil inside)
          exact ⟨token.kind, inside, behind, others, rfl, read, by rw [← placed], tiled⟩
      | cons c gap =>
          rw [same] at whole
          cases whole
          rw [blank first List.mem_cons_self] at solid
          cases solid

theorem alone_iff {source : String} {kind : Kind} :
    Alone source kind ↔ kind.isEnd = false ∧
      (∀ c, source.toList.head? = some c → isBlank c = false) ∧
      Lexeme.read source.toList = ⟨kind, source.toList.length⟩ := by
  constructor
  · rintro ⟨last, tokens, isEnd⟩
    have tiled : Tiled [] source.toList (tokenize source) := (Reader.ofString source).tiled [] rfl
    rw [tokens] at tiled
    cases tiled with
    | @more _ _ token others gap inside behind same blank begins read noEnd span tiled =>
        have start : String.utf8Len gap = 0 := by
          have start := congrArg Span.start span
          simpa using start.symm
        have stop : source.utf8ByteSize = String.utf8Len inside := by
          have stop := congrArg Span.stop span
          simpa [start] using stop
        obtain rfl := String.utf8Len_eq_zero.mp start
        have none : behind = [] := by
          rw [← utf8Len_toList, same, String.utf8Len_append, String.utf8Len_append] at stop
          exact String.utf8Len_eq_zero.mp (by omega)
        subst none
        obtain ⟨first, others, rfl, solid⟩ := begins
        rw [same, List.append_nil, List.nil_append]
        exact ⟨noEnd, fun c head => by cases head; exact solid, by simpa using read⟩
  · rintro ⟨noEnd, solid, read⟩
    cases text : source.toList with
    | nil =>
        rw [text] at read
        cases read
        cases noEnd
    | cons first rest =>
        rw [text] at read solid
        obtain ⟨kind', inside, behind, others, whole, read', tokens, tiled⟩ :=
          tokenize_front text (solid first rfl)
        obtain ⟨rfl, length⟩ := Lexeme.mk.inj (read.symm.trans read')
        have none : behind = [] := by
          rw [whole, List.length_append] at length
          exact List.length_eq_zero_iff.mp (by omega)
        subst none
        cases tiled with
        | @last _ gap final blank isEnd span =>
            rw [List.append_nil] at whole
            exact ⟨final, by rw [tokens, ← whole, ← text, utf8Len_toList], isEnd⟩
        | more gap inside' behind' same blank begins =>
            obtain ⟨first, others, rfl, _⟩ := begins
            simp at same

/-- Every token of a text is read from the characters of its span. -/
theorem Tiled.reads {before text : List Char} {tokens : List Token}
    (tiled : Tiled before text tokens) :
    ∀ token ∈ tokens, token.kind.isEnd = false → ∃ front first inside behind,
      text = front ++ first :: inside ++ behind ∧ isBlank first = false ∧
      token.span = Span.ofRun (before ++ front) (first :: inside) ∧
      Lexeme.read (first :: inside ++ behind) = ⟨token.kind, (first :: inside).length⟩ := by
  induction tiled with
  | last blank isEnd span =>
      refine List.forall_mem_singleton.mpr fun more => ?_
      rw [isEnd] at more
      cases more
  | @more before text token tokens gap inside rest whole blank begins read noEnd span behind ih =>
      obtain ⟨first, others, rfl, solid⟩ := begins
      refine List.forall_mem_cons.mpr ⟨fun _ => ?_, fun token member more => ?_⟩
      · exact ⟨gap, first, others, rest, whole, solid, span, read⟩
      · obtain ⟨front, first', inside, back, split, solid', span', read'⟩ := ih token member more
        refine ⟨gap ++ (first :: others) ++ front, first', inside, back, ?_, solid', ?_, read'⟩
        · simp [whole, split]
        · simpa using span'

/-- Every token stands for itself: the text of its span is a source of this one token. -/
theorem tokenize_alone (source : String) :
    ∀ token ∈ tokenize source, token.kind.isEnd = false →
      Alone (token.span.text source) token.kind := by
  intro token member noEnd
  have tiled : Tiled [] source.toList (tokenize source) := (Reader.ofString source).tiled [] rfl
  obtain ⟨front, first, inside, behind, whole, solid, span, read⟩ :=
    tiled.reads token member noEnd
  have text : token.span.text source = String.ofList (first :: inside) := by
    rw [span, List.nil_append, ← String.ofList_toList (s := source), whole, Span.text_ofRun]
  have again := Lexeme.read_take (first :: inside ++ behind)
  rw [read, List.take_left] at again
  rw [text, alone_iff, String.toList_ofList]
  exact ⟨noEnd, fun c head => by cases head; exact solid, again⟩

/-- A number that a second separator breaks off. -/
theorem tokenize_alone_brokenOff :
    ⟨.malformed (.malformedNumber "1_"), ⟨2, 4, 1, 3⟩⟩ ∈ tokenize "x 1__2" ∧
      Alone "1_" (.malformed (.malformedNumber "1_")) := by
  have member : ⟨.malformed (.malformedNumber "1_"), ⟨2, 4, 1, 3⟩⟩ ∈ tokenize "x 1__2" := by
    decide +kernel
  exact ⟨member, tokenize_alone "x 1__2" _ member rfl⟩

end ContractExpr
