import ContractExpr.Proofs.Expr.Spelling
import ContractExpr.Proofs.Parser.Soundness

/-! # Where the parser fails more tokens could have followed

A parser that fails for another reason than the nesting fails at the token it stops before, and the
tokens it moved over are the beginning of a phrase: what it has read is sound, and each form that is
still open can be closed. Each form of the grammar has its own lemma, beside its soundness.
-/

set_option autoImplicit false

namespace ContractExpr

open Token

namespace Parser

open Grammar

variable {α β γ : Type}

/-! ## Failing in the middle of a phrase -/

def Readable (tokens : List Token) : Prop :=
  ∀ token ∈ tokens, ∀ base digits, token.kind = .number base digits →
    (Number.ofDigits? base digits.toList).isSome = true

theorem Readable.between {tokens rest : List Token} {kinds : List Kind}
    (readable : Readable tokens) (between : Between tokens kinds rest) : Readable rest := by
  obtain ⟨taken, rfl, _⟩ := between
  exact fun token member => readable token (List.mem_append_right taken member)

theorem Readable.front {tokens : List Token} {base : Base} {digits : String}
    (readable : Readable tokens) (front : frontKind tokens = .number base digits) :
    ∃ value, Number.ofDigits? base digits.toList = some value := by
  cases tokens with
  | nil => cases front
  | cons token rest =>
      exact Option.isSome_iff_exists.mp (readable token List.mem_cons_self base digits front)

/-- The error is about the token before the cursor, an unexpected end exactly at the end, and never
about the digits of a number. -/
structure Blames (error : ParseError) (cursor : Cursor) : Prop where
  span : error.span = cursor.current.span
  atEnd : (∃ expected, error.cause = .unexpectedEnd expected) ↔
    frontKind cursor.rest = .endOfInput
  noNumber : ∀ base digits, error.cause ≠ .invalidNumber base digits

structure FallsShort (phrase : List Kind → Prop) (tokens : List Token) (error : ParseError)
    (after : Cursor) : Prop where
  blames : Blames error after
  viable : ∃ kinds further, Between tokens kinds after.rest ∧ phrase (kinds ++ further)

/-- When the parser fails, but not because of the nesting, further tokens would have made what it
moved over a phrase. -/
def Viable {α : Type} (parser : Parser α) (phrase : List Kind → Prop) : Prop :=
  ∀ cursor error after, Readable cursor.rest → parser.run cursor = .refused error after →
    error.cause ≠ .nestedTooDeeply → FallsShort phrase cursor.rest error after

variable {α β γ : Type} {phrase phrase' : List Kind → Prop}

theorem refused_bind {first : Parser α} {next : α → Parser β} {cursor after : Cursor}
    {error : ParseError} (refused : (first >>= next).run cursor = .refused error after) :
    first.run cursor = .refused error after ∨
      ∃ value middle, first.run cursor = .accepted value middle ∧
        (next value).run middle = .refused error after := by
  rw [run_bind] at refused
  cases reply : first.run cursor with
  | accepted value middle => exact Or.inr ⟨value, middle, rfl, by simpa [reply] using refused⟩
  | refused error' after' => exact Or.inl (by simpa [reply] using refused)

namespace FallsShort

variable {tokens middle : List Token} {kinds : List Kind} {error : ParseError} {after : Cursor}

theorem behind (between : Between tokens kinds middle)
    (short : FallsShort (fun further => phrase (kinds ++ further)) middle error after) :
    FallsShort phrase tokens error after := by
  obtain ⟨others, further, between', whole⟩ := short.viable
  exact ⟨short.blames, _, further, between.trans between', by rwa [List.append_assoc]⟩

theorem closed (short : FallsShort phrase tokens error after)
    (closes : ∀ kinds, phrase kinds → ∃ further, phrase' (kinds ++ further)) :
    FallsShort phrase' tokens error after := by
  obtain ⟨kinds, further, between, whole⟩ := short.viable
  obtain ⟨more, whole'⟩ := closes _ whole
  exact ⟨short.blames, kinds, further ++ more, between, by rwa [← List.append_assoc]⟩

end FallsShort

theorem unexpected_falls (expected : Expectation) {cursor after : Cursor} {error : ParseError}
    (refused : (unexpected expected : Parser α).run cursor = .refused error after)
    (viable : ∃ further, phrase further) : FallsShort phrase cursor.rest error after := by
  have blames : Blames error cursor ∧ after = cursor := by
    simp only [unexpected, run_current_bind, Cursor.current_kind] at refused
    split at refused <;> rw [run_refuse] at refused <;> cases refused
    · rename_i kind
      exact ⟨⟨rfl, by simp [kind], by simp⟩, rfl⟩
    · rename_i kind
      exact ⟨⟨rfl, by simp [kind], by simp⟩, rfl⟩
    · rename_i more _
      exact ⟨⟨rfl, by simpa using more, by simp⟩, rfl⟩
  obtain ⟨blames, rfl⟩ := blames
  obtain ⟨further, whole⟩ := viable
  exact ⟨blames, [], further, .refl _, whole⟩

namespace Viable

theorem closed {parser : Parser α} (viable : Viable parser phrase)
    (closes : ∀ kinds, phrase kinds → ∃ further, phrase' (kinds ++ further)) :
    Viable parser phrase' :=
  fun cursor error after readable refused notNested =>
    (viable cursor error after readable refused notNested).closed closes

theorem imp {parser : Parser α} (viable : Viable parser phrase)
    (implies : ∀ kinds, phrase kinds → phrase' kinds) : Viable parser phrase' :=
  viable.closed fun kinds whole => ⟨[], by rw [List.append_nil]; exact implies kinds whole⟩

theorem of_accepts {parser : Parser α}
    (accepts : ∀ cursor, ∃ value after, parser.run cursor = .accepted value after) :
    Viable parser phrase := by
  intro cursor error after _ refused _
  obtain ⟨value, reached, accepted⟩ := accepts cursor
  rw [accepted] at refused
  cases refused

theorem pure (value : α) : Viable (Pure.pure value) phrase :=
  of_accepts fun cursor => ⟨value, cursor, rfl⟩

theorem node (make : Info → α) (span : Span) : Viable (do return make (← fresh span)) phrase :=
  of_accepts fun _ => ⟨_, _, rfl⟩

theorem refuseNesting : Viable (refuse .nestedTooDeeply : Parser α) phrase := by
  intro cursor error after _ refused notNested
  rw [run_refuse] at refused
  cases refused
  exact absurd rfl notNested

/-- One parser behind another: what the first gives can be completed, and so can what the second
adds to it. -/
theorem bind {first : Parser α} {next : α → Parser β} {means : α → List Kind → Prop}
    (sound : Sound first means) (former : Viable first fun kinds => ∃ value, means value kinds)
    (closes : ∀ value kinds, means value kinds → ∃ further, phrase (kinds ++ further))
    (latter : ∀ value kinds, means value kinds →
      Viable (next value) fun further => phrase (kinds ++ further)) :
    Viable (first >>= next) phrase := by
  intro cursor error after readable refused notNested
  rcases refused_bind refused with refused | ⟨value, middle, accepted, refused⟩
  · refine (former cursor error after readable refused notNested).closed ?_
    rintro kinds ⟨value, meant⟩
    exact closes value kinds meant
  · obtain ⟨kinds, between, meant⟩ := sound cursor value middle accepted
    exact (latter value kinds meant middle error after (readable.between between) refused
      notNested).behind between

theorem onMark {mark : Symbol} {next : Bool → Parser α} (yes : Viable (next true) phrase)
    (no : Viable (next false) phrase) : Viable (isAt mark >>= next) phrase := by
  intro cursor error after readable refused notNested
  rw [run_isAt_bind] at refused
  cases here : frontKind cursor.rest == .symbol mark with
  | true => exact yes cursor error after readable (here ▸ refused) notNested
  | false => exact no cursor error after readable (here ▸ refused) notNested

theorem accept {mark : Symbol} {next : Bool → Parser α}
    (yes : Viable (next true) fun further => phrase (.symbol mark :: further))
    (no : Viable (next false) phrase) : Viable (Parser.accept mark >>= next) phrase := by
  intro cursor error after readable refused notNested
  by_cases here : frontKind cursor.rest = .symbol mark
  · rw [run_accept_bind_of_eq here] at refused
    have moved := Cursor.between_advance here rfl
    exact (yes cursor.advance error after (readable.between moved) refused notNested).behind moved
  · rw [run_accept_bind_of_ne here] at refused
    exact no cursor error after readable refused notNested

end Viable

/-! ## Names and marks -/

theorem name_viable : Viable name fun kinds => ∃ given : Name, kinds = [.name given.text] := by
  intro cursor error after _ refused _
  have closed : ∃ (kinds : List Kind) (given : Name), kinds = [.name given.text] :=
    ⟨_, ⟨"a", Info.built⟩, rfl⟩
  unfold name at refused
  rw [run_current_bind, Cursor.current_kind] at refused
  split at refused
  · cases refused
  · rename_i word reserved
    obtain ⟨further, whole⟩ := closed
    rw [run_refuse] at refused
    cases refused
    exact ⟨⟨rfl, by simp [reserved], by simp⟩, [], further, .refl _, whole⟩
  · exact unexpected_falls _ refused closed

theorem expect_viable (mark : Symbol) :
    Viable (expect mark) fun kinds => ∃ _ : Span, kinds = [.symbol mark] := by
  intro cursor error after _ refused _
  by_cases here : frontKind cursor.rest = .symbol mark
  · rw [run_expect_of_eq here] at refused
    cases refused
  · simp only [expect, run_current_bind, run_accept_bind_of_ne here] at refused
    exact unexpected_falls _ refused ⟨_, Span.placeholder, rfl⟩

/-! ## Loops and lists -/

section Loop

variable {continues : Kind → Option γ} {extend : α → γ → Token → Parser α}

/-- A loop fails in one of its rounds, behind what the rounds before it have kept. -/
theorem refused_extendRun (phrase : List Kind → Prop)
    (invariant : α → List Kind → List Token → Prop)
    (step : ∀ {value kinds token rest found nextId extended after},
      invariant value kinds (token :: rest) → continues token.kind = some found →
      (extend value found token).run ⟨rest, nextId⟩ = .accepted extended after →
      ∃ further, Between rest further after.rest ∧
        invariant extended (kinds ++ token.kind :: further) after.rest)
    (fails : ∀ {value kinds token rest found}, invariant value kinds (token :: rest) →
      continues token.kind = some found →
      Viable (extend value found token) fun further => phrase (kinds ++ token.kind :: further))
    {value : α} {kinds : List Kind} {tokens : List Token} {nextId : Nat} {error : ParseError}
    {after : Cursor} (start : invariant value kinds tokens) (readable : Readable tokens)
    (refused : extendRun continues extend value tokens nextId = .refused error after)
    (notNested : error.cause ≠ .nestedTooDeeply) :
    FallsShort (fun further => phrase (kinds ++ further)) tokens error after := by
  fun_induction extendRun continues extend value tokens nextId generalizing kinds with
  | case1 value nextId => cases refused
  | case2 value token rest nextId stops => cases refused
  | case3 value token rest nextId found goesOn extended middle reply ih =>
      obtain ⟨further, between, kept⟩ := step start goesOn reply
      have round := between.cons token
      have short := ih kept (readable.between round) refused
      simp only [List.append_assoc] at short
      exact short.behind round
  | case4 value token rest nextId found goesOn error' middle reply =>
      cases refused
      have one : Between (token :: rest) [token.kind] rest := (Between.refl rest).cons token
      exact (fails start goesOn ⟨rest, nextId⟩ error after (readable.between one) reply
        notNested).behind one

end Loop

section List

variable {close : Symbol} {single : Parser α} {means : α → List Kind → Prop}

def ListedUntil (close : Symbol) (means : α → List Kind → Prop) (items : List α)
    (kinds : List Kind) : Prop :=
  ∃ (entries : List (α × List Kind)) (listed : List Kind), items = entries.map Prod.fst ∧
    (∀ entry ∈ entries, means entry.1 entry.2) ∧ Listing (entries.map Prod.snd) listed ∧
      kinds = listed ++ [.symbol close]

theorem ListedSoFar.closes {items : List α} {kinds : List Kind} {rest : List Token}
    (soFar : ListedSoFar close means items kinds rest) :
    ListedUntil close means items (kinds ++ [.symbol close]) := by
  obtain ⟨entries, rfl, each, state⟩ := soFar
  refine ⟨entries, kinds, rfl, each, ?_, rfl⟩
  rcases state with ⟨_, exactly⟩ | ⟨_, listed⟩
  · rw [exactly]
    exact .plain
  · exact listed

theorem item_viable (viable : Viable single fun kinds => ∃ value, means value kinds)
    (items : List α)
    (closes : ∀ value kinds, means value kinds → ∃ further, phrase (kinds ++ further)) :
    Viable (item close single items) phrase := by
  apply Viable.onMark
  · exact .pure items
  · intro cursor error after readable refused notNested
    rcases refused_bind refused with refused | ⟨value, middle, _, refused⟩
    · refine (viable cursor error after readable refused notNested).closed ?_
      rintro kinds ⟨value, meant⟩
      exact closes value kinds meant
    · cases refused

theorem ListedSoFar.comma_viable {items : List α} {kinds : List Kind} {token : Token}
    {rest : List Token} (viable : Viable single fun kinds => ∃ value, means value kinds)
    (noComma : close ≠ .comma) (soFar : ListedSoFar close means items kinds (token :: rest))
    (comma : token.kind = .symbol .comma) :
    Viable (item close single items) fun further =>
      ∃ items, ListedUntil close means items (kinds ++ token.kind :: further) := by
  obtain ⟨entries, rfl, each, state⟩ := soFar
  have unclosed : entries ≠ [] ∧ kinds = joined (entries.map Prod.snd) := by
    rcases state with before | ⟨isClose, _⟩
    · exact before
    · simp [comma, noComma.symm] at isClose
  obtain ⟨nonempty, rfl⟩ := unclosed
  have runsNonempty : entries.map Prod.snd ≠ [] := by simpa using nonempty
  apply item_viable viable
  intro value run meant
  refine ⟨[.symbol close], _, entries ++ [(value, run)], _, rfl, ?_, .plain, ?_⟩
  · exact List.forall_mem_append.mpr ⟨each, by simpa using meant⟩
  · rw [List.map_append, List.map_singleton, joined_append_singleton runsNonempty, comma]
    simp

theorem listUntil_viable (sound : Sound single means)
    (viable : Viable single fun kinds => ∃ value, means value kinds) (noComma : close ≠ .comma) :
    Viable (listUntil close single) fun kinds => ∃ items, ListedUntil close means items kinds := by
  intro cursor error after readable refused notNested
  rcases refused_bind refused with begun | ⟨first, middle, begun, refused⟩
  · refine item_viable viable [] ?_ cursor error after readable begun notNested
    intro value run meant
    refine ⟨[.symbol close], _, [(value, run)], _, rfl, by simpa using meant, .plain, ?_⟩
    simp [joined]
  obtain ⟨kinds, begins, start⟩ := listedSoFar_start sound begun
  apply FallsShort.behind begins
  rcases refused_bind refused with looped | ⟨items, last, looped, refused⟩
  · refine refused_extendRun (fun kinds => ∃ items, ListedUntil close means items kinds) _
      (listedSoFar_round sound noComma) ?_ start (readable.between begins) looped notNested
    intro items kinds token rest found soFar goesOn
    by_cases comma : token.kind = .symbol .comma
    · exact soFar.comma_viable viable noComma comma
    · simp [comma] at goesOn
  obtain ⟨further, goesOn, soFar⟩ :=
    accepted_extendRun _ (listedSoFar_round sound noComma) start looped
  apply FallsShort.behind goesOn
  have readable := (readable.between begins).between goesOn
  rcases refused_bind refused with unclosed | ⟨span, final, closed, refused⟩
  · refine (expect_viable close last error after readable unclosed notNested).closed ?_
    rintro _ ⟨_, rfl⟩
    exact ⟨[], items, by simpa using soFar.closes⟩
  · cases refused

end List

/-! ## Forms of the grammar -/

/-- The kinds make a phrase of the given form within so many levels. -/
def Forms (left : Nat) (form : α → Phrase) (kinds : List Kind) : Prop :=
  ∃ value, Derives true left (form value) kinds

section Forms

variable {left : Nat} {expression : Parser Expr}

theorem arguments_viable (builder : Builder left expression .expression)
    (viable : Viable expression (Forms (left + 1) .expression)) :
    Viable (arguments expression) (Forms (left + 1) .arguments) := by
  refine Viable.bind (expect_sound .leftParen) (expect_viable .leftParen) ?_ ?_
  · rintro _ _ rfl
    exact ⟨[.symbol .rightParen], [], .arguments [] (by simp) .plain⟩
  · rintro _ _ rfl
    apply (listUntil_viable builder.sound viable (by decide)).imp
    rintro _ ⟨_, entries, listed, rfl, each, listing, rfl⟩
    exact ⟨_, .arguments entries each listing⟩

theorem initializer_viable (viable : Viable expression (Forms (left + 1) .expression))
    (given : Name) :
    Viable (initializer expression given) fun kinds => ∃ value,
      (∃ info, value = .identifier given.text info ∧ kinds = []) ∨
        ∃ further, kinds = .symbol .colon :: further ∧
          Derives true (left + 1) (.expression value) further := by
  apply Viable.accept
  · apply viable.imp
    exact fun kinds ⟨value, derived⟩ => ⟨value, Or.inr ⟨kinds, rfl, derived⟩⟩
  · exact .node _ _

theorem field_viable (builder : Builder left expression .expression)
    (viable : Viable expression (Forms (left + 1) .expression)) :
    Viable (field expression) (Forms (left + 1) .field) := by
  refine Viable.bind name_sound name_viable ?_ ?_
  · rintro given _ rfl
    exact ⟨[], _, .briefField rfl given Info.built Info.built⟩
  · rintro given _ rfl
    refine Viable.bind (initializer_sound builder given) (initializer_viable viable given) ?_ ?_
    · rintro tree _ (⟨info, rfl, rfl⟩ | ⟨kinds, rfl, derived⟩)
      · exact ⟨[], _, .briefField rfl given info Info.built⟩
      · exact ⟨[], _, by simpa using .field given Info.built derived⟩
    · exact fun tree _ _ => .node _ _

theorem fields_viable (builder : Builder left expression .expression)
    (viable : Viable expression (Forms (left + 1) .expression)) :
    Viable (fields expression) (Forms (left + 1) .fields) := by
  refine Viable.bind (expect_sound .leftBrace) (expect_viable .leftBrace) ?_ ?_
  · rintro _ _ rfl
    exact ⟨[.symbol .rightBrace], [], .fields [] (by simp) .plain⟩
  · rintro _ _ rfl
    apply (listUntil_viable (field_building builder).sound (field_viable builder viable)
      (by decide)).imp
    rintro _ ⟨_, entries, listed, rfl, each, listing, rfl⟩
    exact ⟨_, .fields entries each listing⟩

theorem arguments_then_viable (builder : Builder left expression .expression)
    (viable : Viable expression (Forms (left + 1) .expression)) {phrase : List Kind → Prop}
    (make : List Expr × Span → Info → α) (span : List Expr × Span → Span)
    (closes : ∀ trees kinds, Derives true (left + 1) (.arguments trees) kinds → phrase kinds) :
    Viable (do
      let result ← arguments expression
      return make result (← fresh (span result))) phrase := by
  refine Viable.bind (arguments_building builder).sound ?_ ?_ ?_
  · apply (arguments_viable builder viable).imp
    exact fun kinds ⟨trees, derived⟩ => ⟨(trees, Span.placeholder), derived⟩
  · exact fun result kinds derived => ⟨[], by simpa using closes result.1 kinds derived⟩
  · exact fun result _ _ => .node (make result) (span result)

theorem named_viable (builder : Builder left expression .expression)
    (viable : Viable expression (Forms (left + 1) .expression)) :
    Viable (named expression) (Forms (left + 1) .primary) := by
  refine Viable.bind name_sound name_viable ?_ ?_
  · rintro given _ rfl
    exact ⟨[], _, .identifier given.text Info.built⟩
  rintro given _ rfl
  apply Viable.onMark
  · exact arguments_then_viable builder viable _ _
      fun trees kinds derived => ⟨_, .call given Info.built derived⟩
  apply Viable.onMark
  · refine Viable.bind (fields_building builder).sound ?_ ?_ ?_
    · apply (fields_viable builder viable).imp
      exact fun kinds ⟨trees, derived⟩ => ⟨(trees, Span.placeholder), derived⟩
    · exact fun result kinds derived =>
        ⟨[], _, by simpa using .structInstance given Info.built derived⟩
    · exact fun result _ _ => .node _ _
  · exact .pure _

theorem initial_viable (builder : Builder left expression .expression)
    (viable : Viable expression (Forms (left + 1) .expression)) (start : Span) :
    Viable (initial start expression) fun kinds =>
      Forms (left + 1) .primary (.initOf :: kinds) := by
  have none : Derives true (left + 1) (.arguments []) [.symbol .leftParen, .symbol .rightParen] :=
    .arguments [] (by simp) .plain
  refine Viable.bind name_sound name_viable ?_ ?_
  · rintro contract _ rfl
    exact ⟨_, _, .initOf contract Info.built none⟩
  · rintro contract _ rfl
    exact arguments_then_viable builder viable _ _
      fun trees kinds derived => ⟨_, .initOf contract Info.built derived⟩

theorem group_viable (builder : Builder left expression .expression)
    (viable : Viable expression (Forms (left + 1) .expression)) :
    Viable (do
      let inner ← expression
      let _ ← expect .rightParen
      return inner) fun kinds => Forms (left + 1) .primary (.symbol .leftParen :: kinds) := by
  have close : ∀ tree kinds, Derives true (left + 1) (.expression tree) kinds →
      Forms (left + 1) .primary (.symbol .leftParen :: (kinds ++ [.symbol .rightParen])) :=
    fun tree kinds derived => ⟨tree, .group derived⟩
  refine Viable.bind builder.sound viable ?_ ?_
  · exact fun tree kinds derived => ⟨_, close tree kinds derived⟩
  intro tree kinds derived
  refine Viable.bind (expect_sound .rightParen) (expect_viable .rightParen) ?_ ?_
  · rintro _ _ rfl
    exact ⟨[], by simpa using close tree kinds derived⟩
  · exact fun _ _ _ => .pure tree

theorem primary_viable (builder : Builder left expression .expression)
    (viable : Viable expression (Forms (left + 1) .expression)) :
    Viable (primary expression) (Forms (left + 1) .primary) := by
  intro cursor error after readable refused notNested
  unfold primary at refused
  rw [run_current_bind, Cursor.current_kind] at refused
  split at refused
  · cases refused
  · cases refused
  · rename_i base digits isNumber
    obtain ⟨value, read⟩ := readable.front isNumber
    rw [run_advance_bind, read] at refused
    cases refused
  · cases refused
  · rename_i isInitOf
    have moved := Cursor.between_advance isInitOf rfl
    exact (initial_viable builder viable _ cursor.advance error after (readable.between moved)
      refused notNested).behind moved
  · exact named_viable builder viable cursor error after readable refused notNested
  · rename_i isParen
    have moved := Cursor.between_advance isParen rfl
    exact (group_viable builder viable cursor.advance error after (readable.between moved) refused
      notNested).behind moved
  · exact unexpected_falls _ refused ⟨_, _, .identifier "a" Info.built⟩

/-! ### Behind and before an operand -/

theorem member_viable (builder : Builder left expression .expression)
    (viable : Viable expression (Forms (left + 1) .expression)) {receiver : Expr}
    {kinds : List Kind}
    (derived : Derives true (left + 1) (.suffixed receiver) kinds) (given : Expr) :
    Viable (member expression given) fun further =>
      Forms (left + 1) .suffixed (kinds ++ .symbol .dot :: further) := by
  refine Viable.bind name_sound name_viable ?_ ?_
  · rintro name _ rfl
    exact ⟨[], _, .fieldAccess name Info.built derived⟩
  rintro name _ rfl
  apply Viable.onMark
  · exact arguments_then_viable builder viable _ _
      fun trees behind arguments => ⟨_, .methodCall name Info.built derived arguments⟩
  · exact .node _ _

theorem suffix_viable (builder : Builder left expression .expression)
    (viable : Viable expression (Forms (left + 1) .expression)) {operand : Expr} {kinds : List Kind}
    {token : Token} {found : Suffix} (derived : Derives true (left + 1) (.suffixed operand) kinds)
    (continued : suffix? token.kind = some found) :
    Viable (suffix expression operand found token) fun further =>
      Forms (left + 1) .suffixed (kinds ++ token.kind :: further) := by
  unfold suffix? at continued
  split at continued
  · cases continued
    exact .node _ _
  · rename_i isDot
    cases continued
    rw [isDot]
    exact member_viable builder viable derived operand
  · cases continued

theorem suffixed_viable (builder : Builder left expression .expression)
    (viable : Viable expression (Forms (left + 1) .expression)) :
    Viable (suffixed expression) (Forms (left + 1) .suffixed) := by
  refine Viable.bind (primary_building builder).sound (primary_viable builder viable) ?_ ?_
  · exact fun tree kinds derived => ⟨[], tree, by simpa using .unsuffixed derived⟩
  intro operand kinds derived cursor error after readable refused notNested
  exact refused_extendRun (Forms (left + 1) .suffixed)
    (fun tree kinds _ => Derives true (left + 1) (.suffixed tree) kinds)
    (fun derived continued step => suffix_sound builder derived continued _ _ _ step)
    (fun derived continued => suffix_viable builder viable derived continued) (.unsuffixed derived)
    readable refused notNested

theorem applySigns_accepts (start : Span) (signs : List UnaryOp) (operand : Expr)
    (cursor : Cursor) :
    ∃ value after, (applySigns start signs operand).run cursor = .accepted value after := by
  induction signs generalizing operand cursor with
  | nil => exact ⟨operand, cursor, rfl⟩
  | cons op outer ih => exact ih _ ⟨cursor.rest, cursor.nextId + 1⟩

theorem signed_viable {inner operand : Parser Expr}
    (within : Viable inner fun kinds =>
      ∃ below, left = below + 1 ∧ Forms below .signed kinds)
    (without : Viable operand (Forms left .suffixed)) :
    Viable (signed inner operand) (Forms left .signed) := by
  intro cursor error after readable refused notNested
  unfold signed at refused
  rw [run_current_bind, Cursor.current_kind] at refused
  have behind (start : Span) (signs : List UnaryOp) {middle : Cursor}
      (refused : (do applySigns start signs (← inner) : Parser Expr).run middle =
        .refused error after) : inner.run middle = .refused error after := by
    rcases refused_bind refused with refused | ⟨value, last, _, refused⟩
    · exact refused
    · obtain ⟨tree, final, accepted⟩ := applySigns_accepts start signs value last
      rw [accepted] at refused
      cases refused
  have deeper {mark : Symbol} (isSign : frontKind cursor.rest = .symbol mark)
      (refused : inner.run cursor.advance = .refused error after)
      (build : ∀ below tree kinds, Derives true below (.signed tree) kinds →
        Forms (below + 1) .signed (.symbol mark :: kinds)) :
      FallsShort (Forms left .signed) cursor.rest error after := by
    have moved := Cursor.between_advance isSign rfl
    refine FallsShort.behind moved ((within.imp ?_) cursor.advance error after
      (readable.between moved) refused notNested)
    rintro kinds ⟨below, rfl, tree, derived⟩
    exact build below tree kinds derived
  rcases signs_cases (frontKind cursor.rest) with
    unsigned | ⟨op, leads, isSign, signs⟩ | ⟨isSign, signs⟩
  · simp only [unsigned] at refused
    exact without.imp (fun kinds ⟨tree, derived⟩ => ⟨tree, .unsigned derived⟩) cursor error after
      readable refused notNested
  · simp only [signs, run_advance_bind] at refused
    exact deeper isSign (behind _ _ refused) fun below tree kinds derived =>
      ⟨_, .sign op Info.built leads derived⟩
  · simp only [signs, run_advance_bind] at refused
    exact deeper isSign (behind _ _ refused) fun below tree kinds derived =>
      ⟨_, .doubleNot Info.built Info.built derived⟩

/-! ### Between operands -/

theorem chainStep_viable {strength : Nat} {operand : Parser Expr} {tree : Expr} {kinds : List Kind}
    {op : BinaryOp} {token : Token} (builder : Builder left operand (.chain (strength + 1)))
    (viable : Viable operand (Forms (left + 1) (.chain (strength + 1))))
    (derived : Derives true (left + 1) (.chain strength tree) kinds)
    (isOperator : operatorOf? strength token.kind = some op) (given : Expr) :
    Viable (chainStep operand given op token) fun further =>
      Forms (left + 1) (.chain strength) (kinds ++ token.kind :: further) := by
  obtain ⟨isSymbol, rfl⟩ := operatorOf?_eq_some isOperator
  rw [isSymbol]
  refine Viable.bind builder.sound viable ?_ ?_
  · exact fun right behind derivedRight =>
      ⟨[], _, by simpa using .binary op Info.built derived derivedRight⟩
  · exact fun right behind _ => .node _ _

theorem leftChain_viable {strength : Nat} {operand : Parser Expr}
    (below : strength < Precedence.sign)
    (builder : Builder left operand (.chain (strength + 1)))
    (viable : Viable operand (Forms (left + 1) (.chain (strength + 1)))) :
    Viable (leftChain strength operand) (Forms (left + 1) (.chain strength)) := by
  rw [leftChain_eq]
  refine Viable.bind builder.sound viable ?_ ?_
  · exact fun tree kinds derived => ⟨[], tree, by simpa using .tighter below derived⟩
  intro first kinds derived cursor error after readable refused notNested
  exact refused_extendRun (Forms (left + 1) (.chain strength))
    (fun tree kinds _ => Derives true (left + 1) (.chain strength tree) kinds)
    (fun derived isOperator step => chainStep_sound builder derived isOperator _ _ _ step)
    (fun derived isOperator => chainStep_viable builder viable derived isOperator _)
    (.tighter below derived) readable refused notNested

theorem binary_viable {operand : Parser Expr} (builder : Builder left operand .signed)
    (viable : Viable operand (Forms (left + 1) .signed)) (least : Nat)
    (bounded : least ≤ Precedence.sign) :
    Viable (binary operand least) (Forms (left + 1) (.chain least)) := by
  -- by the number of strengths from the least one up to the signs
  induction gap : Precedence.sign - least generalizing least with
  | zero =>
      obtain rfl : least = Precedence.sign := by omega
      rw [binary_sign]
      exact viable.imp fun kinds ⟨tree, derived⟩ => ⟨tree, .operand derived⟩
  | succ gap ih =>
      have below : least < Precedence.sign := by omega
      rw [binary_of_lt below]
      exact leftChain_viable below (binary_building builder (least + 1) below)
        (ih (least + 1) below (by omega))

theorem conditional_viable {operand expression : Parser Expr}
    (builder : Builder left operand .signed) (viable : Viable operand (Forms (left + 1) .signed))
    (builderExpression : Builder left expression .expression)
    (viableExpression : Viable expression (Forms (left + 1) .expression)) :
    Viable (conditional operand expression) (Forms (left + 1 + 1) .expression) := by
  have chain := (binary_building builder Precedence.loosestBinary (by decide)).sound
  have chainViable := binary_viable builder viable Precedence.loosestBinary (by decide)
  obtain ⟨name, named⟩ : ∃ tree, Derives true (left + 1) (.expression tree) [.name "a"] :=
    ⟨_, (spelled true (.identifier "a" Info.built)).whole (left + 1) (Nat.succ_pos left)⟩
  refine Viable.bind chain chainViable ?_ ?_
  · exact fun condition kinds derived => ⟨[], _, by simpa using .unconditional derived⟩
  intro condition before derivedCondition
  apply Viable.accept
  · refine Viable.bind chain chainViable ?_ ?_
    · exact fun consequent between derived =>
        ⟨[.symbol .colon, .name "a"], _, .conditional Info.built derivedCondition derived named⟩
    intro consequent between derivedConsequent
    refine Viable.bind (expect_sound .colon) (expect_viable .colon) ?_ ?_
    · rintro _ _ rfl
      exact ⟨[.name "a"], _, by
        simpa using .conditional Info.built derivedCondition derivedConsequent named⟩
    rintro _ _ rfl
    refine Viable.bind builderExpression.sound viableExpression ?_ ?_
    · exact fun alternative behind derived => ⟨[], _, by
        simpa using .conditional Info.built derivedCondition derivedConsequent derived⟩
    · exact fun _ _ _ => .node _ _
  · exact .pure condition

end Forms

/-! ## Levels -/

/-- The parsers that can open the given number of levels fail where one more level would do: the
last branch of a conditional may be missing. -/
theorem withLeft_viable (left : Nat) :
    Viable (Level.withLeft left).expression (Forms (left + 1) .expression) ∧
      Viable (Level.withLeft left).operand (Forms (left + 1) .signed) := by
  induction left with
  | zero =>
      have viable : Viable (Level.withLeft 0).expression (Forms 1 .expression) := .refuseNesting
      exact ⟨viable, signed_viable .refuseNesting (suffixed_viable (withLeft_building 0).1 viable)⟩
  | succ left ih =>
      have building := withLeft_building left
      have viable := conditional_viable building.2 ih.2 building.1 ih.1
      refine ⟨viable, signed_viable ?_ (suffixed_viable (withLeft_building (left + 1)).1 viable)⟩
      exact ih.2.imp fun kinds formed => ⟨left + 1, rfl, formed⟩

theorem complete_viable (left : Nat) :
    Viable (complete (expressionWithin left)) (Forms (left + 1) .expression) := by
  refine Viable.bind (withLeft_building left).1.sound (withLeft_viable left).1 ?_ ?_
  · exact fun tree kinds derived => ⟨[], tree, by simpa using derived⟩
  intro tree kinds derived cursor error after readable refused notNested
  rw [run_current_bind] at refused
  split at refused
  · cases refused
  · exact unexpected_falls _ refused ⟨[], tree, by simpa using derived⟩

end Parser
end ContractExpr
