import ContractExpr.Proofs.Number.Canonical
import ContractExpr.Proofs.Parser.Blame
import ContractExpr.Proofs.Session.Calls

/-! # Number literals are always read

A number token has digits of its base only, and at least one of them, whatever stands in the source.
So the digits of a token always denote a number, and no call of a parser complains about them.
-/

set_option autoImplicit false

namespace ContractExpr

open Token

/-! ## Tokens -/

/-- The digits of a number token are digits of its base, which denote a number. -/
theorem tokenize_number_digits {source : String} {token : Token} {base : Base} {digits : String}
    (member : token ∈ tokenize source) (isNumber : token.kind = .number base digits) :
    digits.toList ≠ [] ∧ (∀ c ∈ digits.toList, base.HasDigit c) ∧
      Number.ofDigits? base digits.toList = some ⟨base, base.denoted digits.toList⟩ := by
  have inKinds : .number base digits ∈ kindsOf source.toList := by
    rw [← map_kind_tokenize, ← isNumber]
    exact List.mem_map_of_mem member
  obtain ⟨value, read⟩ := Option.isSome_iff_exists.mp (ofDigits?_of_mem inKinds)
  obtain ⟨nonempty, all, rfl⟩ := Number.ofDigits?_eq_some.mp read
  exact ⟨nonempty, all, read⟩

/-! ## Errors -/

/-- What an error about the digits of a number begins with. -/
def ParseError.numberComplaint : String := "invalid number literal: "

theorem not_begins_of_take_ne {text front : List Char} (count : Nat) (long : count ≤ text.length)
    (long' : count ≤ front.length) (differ : front.take count ≠ text.take count)
    (behind : List Char) : ¬text <+: front ++ behind := by
  rintro ⟨rest, same⟩
  have firsts := congrArg (List.take count) same
  rw [List.take_append_of_le_length long, List.take_append_of_le_length long'] at firsts
  exact differ firsts.symm

theorem LexicalError.message_not_begins (error : LexicalError) :
    ¬ParseError.numberComplaint.toList <+: error.message.toList := by
  -- the first nine characters tell the texts apart, whatever is quoted behind them
  unfold LexicalError.message
  cases error with
  | unterminatedComment | unterminatedString | unopenedUnicodeEscape | unterminatedUnicodeEscape =>
      decide
  | invalidEscape | invalidDigit | malformedNumber | unexpectedCharacter =>
      rw [String.toList_append]
      exact not_begins_of_take_ne 9 (by decide) (by decide) (by decide) _
  | invalidUnicodeEscape digits =>
      dsimp only
      rw [String.append_assoc, String.toList_append]
      exact not_begins_of_take_ne 9 (by decide) (by decide) (by decide) _

/-- Only an error about the digits of a number reads as one. -/
theorem ParseError.Cause.detail?_begins_iff {cause : ParseError.Cause} :
    (∃ text, cause.detail? = some text ∧ numberComplaint.toList <+: text.toList) ↔
      ∃ base digits, cause = .invalidNumber base digits := by
  constructor
  · rintro ⟨text, detail, begins⟩
    cases cause with
    | unexpectedToken | unexpectedEnd => cases detail
    | malformedToken error =>
        cases detail
        exact absurd begins error.message_not_begins
    | reservedName word =>
        cases detail
        rw [String.append_assoc, String.toList_append] at begins
        exact absurd begins (not_begins_of_take_ne 9 (by decide) (by decide) (by decide) _)
    | invalidNumber base digits => exact ⟨base, digits, rfl⟩
    | nestedTooDeeply =>
        cases detail
        exact absurd begins (by decide)
  · rintro ⟨base, digits, rfl⟩
    refine ⟨_, rfl, ?_⟩
    rw [String.append_assoc, String.toList_append]
    exact List.prefix_append _ _

/-! ## Calls -/

theorem Parser.refused_reads_numbers {left : Nat} {cursor after : Cursor} {error : ParseError}
    (readable : Readable cursor.rest)
    (refused : (complete (expressionWithin left)).run cursor = .refused error after)
    (base : Base) (digits : String) : error.cause ≠ .invalidNumber base digits := by
  by_cases nested : error.cause = .nestedTooDeeply
  · intro same
    rw [nested] at same
    cases same
  · exact (complete_viable left cursor error after readable refused nested).blames.noNumber base
      digits

namespace Session

theorem readable_after (source : String) (calls : Nat) :
    Parser.Readable ((ofSource source).after calls).rest := by
  have idle : (ofSource source).Idle := idle_ofTokens _
  intro token member
  have inSource := List.mem_of_mem_drop member
  rw [idle.tokens_after] at inSource
  exact readable_ofSource source token inSource

/-- The digits of every number token are at least one digit of its base and no other character, so
they denote a number. However often a parser is called, it never fails because of the digits of a
number, and none of its errors reads as if it did. -/
theorem answer_reads_numbers (source : String) :
    (∀ token ∈ tokenize source, ∀ base digits, token.kind = .number base digits →
      digits.toList ≠ [] ∧ (∀ c ∈ digits.toList, base.HasDigit c) ∧
        ∃ number, Number.ofDigits? base digits.toList = some number) ∧
    ∀ calls error, ((ofSource source).after calls).answer = .error (.failed error) →
      (∀ base digits, error.cause ≠ .invalidNumber base digits) ∧
        ¬∃ text, error.cause.detail? = some text ∧
          ParseError.numberComplaint.toList <+: text.toList := by
  constructor
  · intro token member base digits isNumber
    obtain ⟨nonempty, all, read⟩ := tokenize_number_digits member isNumber
    exact ⟨nonempty, all, _, read⟩
  · intro calls error failed
    have idle : ((ofSource source).after calls).Idle := (idle_ofTokens _).after calls
    rw [idle.answer_eq] at failed
    have other : ∀ base digits, error.cause ≠ .invalidNumber base digits := by
      cases reply : ((ofSource source).after calls).reply with
      | accepted tree after =>
          rw [reply] at failed
          cases failed
      | refused error' after =>
          rw [reply] at failed
          cases failed
          exact Parser.refused_reads_numbers (readable_after source calls) reply
    refine ⟨other, fun complains => ?_⟩
    obtain ⟨base, digits, same⟩ := ParseError.Cause.detail?_begins_iff.mp complains
    exact other base digits same

/-- A number that is read, and behind it one with a foreign digit: the second call still finds what
made the first one fail. -/
theorem answer_reads_numbers_secondCall :
    let error : ParseError := ⟨.malformedToken (.invalidDigit "0b12"), ⟨7, 11, 1, 8⟩⟩
    (∃ number, Number.ofDigits? .hexadecimal "Ff0".toList = some number) ∧
      ((ofSource "0xFf_0 0b12").after 1).answer = .error (.failed error) ∧
      ¬∃ text, error.cause.detail? = some text ∧
        ParseError.numberComplaint.toList <+: text.toList := by
  intro error
  have member : ⟨.number .hexadecimal "Ff0", ⟨0, 6, 1, 1⟩⟩ ∈ tokenize "0xFf_0 0b12" := by
    decide +kernel
  have seen : (match ((ofSource "0xFf_0 0b12").after 1).answer with
      | .error (.failed found) => some found
      | _ => none) = some error := by decide +kernel
  have failed : ((ofSource "0xFf_0 0b12").after 1).answer = .error (.failed error) := by
    split at seen
    · rename_i found answered
      rw [answered, Option.some.inj seen]
    · cases seen
  obtain ⟨tokens, errors⟩ := answer_reads_numbers "0xFf_0 0b12"
  exact ⟨(tokens _ member _ _ rfl).2.2, failed, (errors 1 error failed).2⟩

end Session
end ContractExpr
