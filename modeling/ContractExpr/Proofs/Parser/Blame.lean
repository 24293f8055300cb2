import ContractExpr.Proofs.Parser.Exactness
import ContractExpr.Proofs.Parser.Foresight
import ContractExpr.Proofs.Parser.NestingLimit
import ContractExpr.Proofs.Parser.Viability
import ContractExpr.Proofs.Token.Numbers

/-! # Errors blame the first impossible token

An error that is not about the nesting has the place of one token: the tokens before it could have
been completed to an expression, and no further tokens make one of the tokens up to it.
-/

set_option autoImplicit false

namespace ContractExpr

open Token Grammar ContractExpr.Parser

/-- An error is about the token of this index, comments not counted. -/
structure Blamed (source : String) (error : ParseError) (index : Nat) : Prop where
  span : (Cursor.ofSource source).rest[index]?.map Token.span = some error.span
  /-- The tokens before it begin a sentence of the grammar, with as many levels as it takes. -/
  viable : ∃ further tree left,
    Derives true left (.expression tree) ((significantKinds source).take index ++ further)
  /-- Nothing that begins with the tokens up to it is accepted, whatever the limit on nesting. -/
  impossible : ∀ left tokens, (significantKinds source).take (index + 1) <+: tokens.map Token.kind →
    ∀ value after, (complete (expressionWithin left)).run ⟨tokens, 1⟩ ≠ .accepted value after
  atEnd : (∃ expected, error.cause = .unexpectedEnd expected) ↔
    (significantKinds source)[index]? = some .endOfInput

theorem readable_ofSource (source : String) : Readable (Cursor.ofSource source).rest := by
  intro token member base digits isNumber
  have kinds : .number base digits ∈ significantKinds source := by
    rw [← map_kind_ofSource, ← isNumber]
    exact List.mem_map_of_mem member
  exact ofDigits?_of_mem (significantKinds_subset source kinds)

theorem between_ofSource {source : String} {kinds : List Kind} {rest : List Token}
    (between : Between (Cursor.ofSource source).rest kinds rest)
    (significant : ∀ kind ∈ kinds, kind.isEnd = false) :
    ∃ token others, rest = token :: others := by
  cases rest with
  | cons token others => exact ⟨token, others, rfl⟩
  | nil =>
      obtain ⟨taken, whole, rfl⟩ := between
      obtain ⟨front, shape, _⟩ := significantKinds_eq_append source
      rw [← map_kind_ofSource, whole, List.append_nil] at shape
      have isEnd := significant .endOfInput (by simp [shape])
      cases isEnd

namespace Parser

theorem Restricts.refused {α : Type} {strict loose : Parser α} {cursor after : Cursor}
    {error : ParseError} (restricts : Restricts strict loose)
    (refused : strict.run cursor = .refused error after)
    (notNested : error.cause ≠ .nestedTooDeeply) : loose.run cursor = .refused error after := by
  rcases restricts cursor with same | ⟨error', after', refused', nested⟩
  · rw [← same, refused]
  · rw [refused] at refused'
    cases refused'
    exact absurd nested notNested

/-- What is refused before a token, but not because of the nesting, is refused before any token of
its kind, whatever stands behind it and with whatever limit. -/
theorem not_accepted_of_refused {limit : Nat} {cursor after : Cursor} {error : ParseError}
    (refused : (complete (expressionWithin limit)).run cursor = .refused error after)
    (notNested : error.cause ≠ .nestedTooDeeply) {kinds : List Kind}
    (between : Between cursor.rest kinds after.rest) {tokens : List Token}
    (begins : kinds ++ [frontKind after.rest] <+: tokens.map Token.kind) (left : Nat) :
    ∀ value reached, (complete (expressionWithin left)).run ⟨tokens, cursor.nextId⟩ ≠
      .accepted value reached := by
  intro value reached accepted
  -- the greater limit of the two accepts the one and refuses the other
  have accepted := (complete_restricts (Nat.le_max_left left limit)).accepted accepted
  have refused := (complete_restricts (Nat.le_max_right left limit)).refused refused notNested
  obtain ⟨further, kindsExact⟩ := begins
  rw [List.append_assoc] at kindsExact
  obtain ⟨taken, rest, rfl, sameKinds, behind⟩ := List.map_eq_append_iff.mp kindsExact.symm
  obtain ⟨token, others, rfl, front, _⟩ := List.map_eq_cons_iff.mp behind
  have echo := complete_echoes (max left limit) cursor kinds
  rw [refused] at echo
  obtain ⟨error', refused', _⟩ :=
    (echo between _ (token :: others) ⟨taken, rfl, sameKinds⟩ front).of_refused
  rw [refused'] at accepted
  cases accepted

end Parser

namespace Expr

theorem parse_eq_error {source : String} {error : ParseError} :
    parse source = .error error ↔
      ∃ after, input.run (Cursor.ofSource source) = .refused error after := by
  rw [parse]
  cases input.run (Cursor.ofSource source) <;> simp [Reply.toExcept]

/-- Every error that is not about the nesting blames a token: the first one that no expression can
have there. -/
theorem parse_blames {source : String} {error : ParseError} (failed : parse source = .error error)
    (notNested : error.cause ≠ .nestedTooDeeply) : ∃ index, Blamed source error index := by
  obtain ⟨after, refused⟩ := parse_eq_error.mp failed
  obtain ⟨blames, kinds, further, between, tree, derived⟩ :=
    complete_viable nestingLimit _ error after (readable_ofSource source) refused notNested
  have significant : ∀ kind ∈ kinds, kind.isEnd = false := fun kind member =>
    (derived.significant kind (List.mem_append_left further member)).2
  obtain ⟨token, others, behind⟩ := between_ofSource between significant
  obtain ⟨taken, whole, rfl⟩ := id between
  have before : (significantKinds source).take taken.length = taken.map Token.kind := by
    rw [← map_kind_ofSource, whole, List.map_append]
    simp
  have here : (Cursor.ofSource source).rest[taken.length]? = some token := by
    rw [whole, behind]
    simp
  have kindHere : (significantKinds source)[taken.length]? = some token.kind := by
    rw [← map_kind_ofSource, List.getElem?_map, here]
    rfl
  have current : after.current = token := by
    rw [Cursor.current, behind]
    rfl
  refine ⟨taken.length, ?_, ?_, ?_, ?_⟩
  · rw [here, blames.span, current]
    rfl
  · rw [before]
    exact ⟨further, tree, _, derived⟩
  · intro left tokens begins
    refine not_accepted_of_refused refused notNested between ?_ left
    rw [List.take_add_one, before, kindHere] at begins
    rw [behind]
    exact begins
  · rw [blames.atEnd, kindHere, behind]
    simp

/-- A conditional without its last branch is noticed at the parenthesis that closes around it. -/
theorem parse_blames_missing_branch :
    parse "f(a ? b)" = .error ⟨.unexpectedToken (.symbol .colon) (.symbol .rightParen),
        ⟨7, 8, 1, 8⟩⟩ ∧
      ∃ index, Blamed "f(a ? b)" ⟨.unexpectedToken (.symbol .colon) (.symbol .rightParen),
        ⟨7, 8, 1, 8⟩⟩ index := by
  have failed : parse "f(a ? b)" = .error ⟨.unexpectedToken (.symbol .colon) (.symbol .rightParen),
      ⟨7, 8, 1, 8⟩⟩ := by with_unfolding_all rfl
  exact ⟨failed, parse_blames failed (by decide)⟩

end Expr
end ContractExpr
