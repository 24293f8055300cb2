import ContractExpr.Parser.Descent
import ContractExpr.Proofs.Parser.Steps

/-! # Functions on sessions and parsers

A function on sessions mirrors a parser when from every session it answers what the parser replies
at the cursor of the session. The session then stands where the parser's cursor does, with the same
levels open as before, whether the answer is a value or an error. The identities of the session may
be ahead of those of the cursor by an offset, and are so in everything that is read.
-/

set_option autoImplicit false

namespace ContractExpr

open Token

def Info.shift (offset : Nat) (info : Info) : Info := ⟨info.id + offset, info.span⟩

/-! ## Where a session stands -/

namespace Session

def cursor (session : Session) (nextId : Nat) : Cursor := ⟨session.rest, nextId⟩

variable {session : Session} {nextId : Nat}

theorem rest_eq_cons (session : Session) :
    session.rest = session.current :: session.tokens.drop (session.position + 1) := by
  rw [rest, List.drop_eq_getElem_cons session.inside]
  rfl

theorem current_cursor : (session.cursor nextId).current = session.current := by
  rw [Cursor.current, cursor, rest_eq_cons]
  rfl

theorem frontKind_rest : frontKind session.rest = session.current.kind := by
  rw [rest_eq_cons, frontKind_cons]

theorem tokens_advance : session.advance.tokens = session.tokens := by
  unfold advance
  split <;> rfl

theorem advance_of_end (isEnd : session.current.kind.isEnd = true) : session.advance = session := by
  simp [advance, isEnd]

theorem rest_of_more (more : session.current.kind.isEnd = false) :
    session.rest = session.current :: session.advance.rest := by
  rw [rest_eq_cons, advance, dif_pos more]
  rfl

theorem cursor_advance : (session.cursor nextId).advance = session.advance.cursor nextId := by
  rw [Cursor.advance, current_cursor]
  cases more : session.current.kind.isEnd with
  | true => rw [if_pos rfl, advance_of_end more]
  | false =>
      rw [if_neg Bool.false_ne_true, cursor, rest_of_more more]
      rfl

theorem previousSpan_advance (more : session.current.kind.isEnd = false) :
    session.advance.previousSpan = session.current.span := by
  rw [advance, dif_pos more, previousSpan, if_pos (Nat.succ_pos _)]
  rfl

/-- The identities of a session are ahead of a cursor's by an offset, and some levels are left. -/
structure At (offset left nextId : Nat) (session : Session) : Prop where
  ids : session.nextId = nextId + offset
  level : session.nesting + left = Parser.nestingLimit

/-- A session that began as the first one stands at the cursor and has closed the levels that it
opened. -/
structure Leads (offset : Nat) (before : Session) (cursor : Cursor) (after : Session) : Prop where
  tokens : after.tokens = before.tokens
  rest : after.rest = cursor.rest
  ids : after.nextId = cursor.nextId + offset
  nesting : after.nesting = before.nesting
  deeper : before.deepest ≤ after.deepest
  bounded : after.deepest ≤ max before.deepest Parser.nestingLimit

namespace Leads

variable {offset left : Nat} {first second third : Session} {cursor cursor' : Cursor}

theorem trans (near : first.Leads offset cursor second) (far : second.Leads offset cursor' third) :
    first.Leads offset cursor' third where
  tokens := far.tokens.trans near.tokens
  rest := far.rest
  ids := far.ids
  nesting := far.nesting.trans near.nesting
  deeper := Nat.le_trans near.deeper far.deeper
  bounded := by
    have near := near.bounded
    have far := far.bounded
    omega

theorem stands (leads : first.Leads offset cursor second)
    (stood : first.At offset left nextId) : second.At offset left cursor.nextId :=
  ⟨leads.ids, by rw [leads.nesting, stood.level]⟩

theorem cursor_eq (leads : first.Leads offset cursor second) :
    second.cursor cursor.nextId = cursor := by
  rw [Session.cursor, leads.rest]

end Leads

theorem At.leads {offset left : Nat} (stands : session.At offset left nextId) :
    session.Leads offset (session.cursor nextId) session :=
  ⟨rfl, rfl, stands.ids, rfl, Nat.le_refl _, Nat.le_max_left _ _⟩

theorem At.leads_advance {offset left : Nat} (stands : session.At offset left nextId) :
    session.Leads offset (session.advance.cursor nextId) session.advance := by
  have same : session.advance.nextId = session.nextId ∧
      session.advance.nesting = session.nesting ∧ session.advance.deepest = session.deepest := by
    unfold Session.advance
    split <;> exact ⟨rfl, rfl, rfl⟩
  exact ⟨tokens_advance, rfl, same.1.trans stands.ids, same.2.1, Nat.le_of_eq same.2.2.symm,
    same.2.2 ▸ Nat.le_max_left _ _⟩

end Session

/-! ## Agreement -/

section Agreement

variable {α β γ δ : Type} {offset left nextId : Nat} {relate : α → β → Session → Prop}
  {further : γ → δ → Session → Prop}

theorem Descent.bind_eq (function : Descent β) (continuation : β → Descent δ) (session : Session) :
    (function >>= continuation) session =
      match function session with
      | .ok given after => continuation given after
      | .error stop after => .error stop after := by
  show EStateM.bind function continuation session = _
  unfold EStateM.bind
  cases function session <;> rfl

theorem Descent.peek_eq (session : Session) :
    Descent.peek session = .ok session.current session := rfl

theorem Descent.isAt_eq (mark : Symbol) (session : Session) :
    Descent.isAt mark session = .ok (session.current.kind == .symbol mark) session := rfl

inductive Agrees (offset : Nat) (relate : α → β → Session → Prop) (before : Session) :
    Reply α → EStateM.Result Stop Session β → Prop where
  | accepted {value : α} {given : β} {cursor : Cursor} {after : Session}
      (related : relate value given after) (leads : before.Leads offset cursor after) :
      Agrees offset relate before (.accepted value cursor) (.ok given after)
  | refused {error : ParseError} {cursor : Cursor} {after : Session}
      (leads : before.Leads offset cursor after) :
      Agrees offset relate before (.refused error cursor) (.error (.failed error) after)

/-- From every session with so many levels left the function agrees with the parser. -/
def Mirrors (offset left : Nat) (relate : α → β → Session → Prop) (parser : Parser α)
    (function : Descent β) : Prop :=
  ∀ session nextId, session.At offset left nextId →
    Agrees offset relate session (parser.run (session.cursor nextId)) (function session)

def Made (f : α → β) : α → β → Session → Prop := fun value given _ => given = f value

theorem Agrees.from_leads {before middle : Session} {cursor : Cursor} {reply : Reply α}
    {outcome : EStateM.Result Stop Session β} (leads : before.Leads offset cursor middle)
    (agrees : Agrees offset relate middle reply outcome) :
    Agrees offset relate before reply outcome := by
  cases agrees with
  | accepted related behind => exact .accepted related (leads.trans behind)
  | refused behind => exact .refused (leads.trans behind)

/-- What is given is related to the value that was replied. -/
theorem Agrees.exact {before : Session} {value : α} {cursor : Cursor}
    {outcome : EStateM.Result Stop Session β}
    (agrees : Agrees offset relate before (.accepted value cursor) outcome) :
    Agrees offset (fun value' given after => value' = value ∧ relate value given after) before
      (.accepted value cursor) outcome := by
  cases agrees with
  | accepted related leads => exact .accepted ⟨rfl, related⟩ leads

theorem Agrees.bind {parser : Parser α} {function : Descent β} {next : α → Parser γ}
    {continuation : β → Descent δ} {session : Session}
    (stands : session.At offset left nextId)
    (begun : Agrees offset relate session (parser.run (session.cursor nextId)) (function session))
    (behind : ∀ value given after nextId, relate value given after →
      after.At offset left nextId →
      Agrees offset further after ((next value).run (after.cursor nextId))
        (continuation given after)) :
    Agrees offset further session ((parser >>= next).run (session.cursor nextId))
      ((function >>= continuation) session) := by
  rw [Parser.run_bind, Descent.bind_eq]
  generalize parser.run (session.cursor nextId) = reply at begun ⊢
  generalize function session = outcome at begun ⊢
  cases begun with
  | accepted related leads =>
      have agrees := behind _ _ _ _ related (leads.stands stands)
      rw [leads.cursor_eq] at agrees
      exact agrees.from_leads leads
  | refused leads => exact .refused leads

namespace Mirrors

variable {parser : Parser α} {function : Descent β} {next : α → Parser γ}
  {continuation : β → Descent δ} {f : α → β} {mark : Symbol}

theorem bind (begun : Mirrors offset left (Made f) parser function)
    (behind : ∀ value, Mirrors offset left further (next value) (continuation (f value))) :
    Mirrors offset left further (parser >>= next) (function >>= continuation) := by
  intro session nextId stands
  refine (begun session nextId stands).bind stands ?_
  rintro value _ after nextId rfl standsAfter
  exact behind value after nextId standsAfter

theorem pure (value : α) : Mirrors offset left (Made f) (pure value) (pure (f value)) :=
  fun _ _ stands => .accepted rfl stands.leads

theorem peek {next : Token → Parser α} {continuation : Token → Descent β}
    (behind : ∀ token, Mirrors offset left relate (next token) (continuation token)) :
    Mirrors offset left relate (Parser.current >>= next) (Descent.peek >>= continuation) := by
  intro session nextId stands
  rw [Parser.run_current_bind, Session.current_cursor]
  exact behind session.current session nextId stands

theorem advance : Mirrors offset left (Made id) Parser.advance Descent.advance := by
  intro session nextId stands
  have reply : Parser.advance.run (session.cursor nextId) =
      .accepted () (session.cursor nextId).advance := rfl
  rw [reply, Session.cursor_advance]
  exact .accepted rfl stands.leads_advance

theorem fresh (span : Span) :
    Mirrors offset left (Made (Info.shift offset)) (Parser.fresh span) (Descent.fresh span) := by
  intro session nextId stands
  have given : Info.mk session.nextId span = Info.shift offset ⟨nextId, span⟩ := by
    rw [stands.ids]
    rfl
  have ids : session.takeId.nextId = nextId + 1 + offset := by
    have ids := stands.ids
    show session.nextId + 1 = _
    omega
  exact .accepted given ⟨rfl, rfl, ids, rfl, Nat.le_refl _, Nat.le_max_left _ _⟩

theorem fail (error : ParseError) :
    Mirrors offset left relate (Parser.fail error) (Descent.fail error) :=
  fun _ _ stands => .refused stands.leads

theorem refuse (cause : ParseError.Cause) :
    Mirrors offset left relate (Parser.refuse cause) (Descent.refuse cause) :=
  peek fun _ => fail _

theorem unexpected (expected : Expectation) :
    Mirrors offset left relate (Parser.unexpected expected) (Descent.unexpected expected) := by
  apply peek
  intro token
  cases token.kind <;> exact refuse _

theorem isAt : Mirrors offset left (Made id) (Parser.isAt mark) (Descent.isAt mark) :=
  peek fun _ => pure _

theorem accept : Mirrors offset left (Made id) (Parser.accept mark) (Descent.accept mark) := by
  apply isAt.bind
  rintro (_ | _)
  · exact pure false
  · exact advance.bind fun _ => pure true

end Mirrors

/-! ## Symbols that have to be there -/

theorem Descent.accept_eq (mark : Symbol) (session : Session) :
    Descent.accept mark session =
      if session.current.kind = .symbol mark then .ok true session.advance
      else .ok false session := by
  rw [Descent.accept, Descent.bind_eq, Descent.isAt_eq]
  by_cases here : session.current.kind = .symbol mark
  · simp only [here, beq_self_eq_true, if_true]
    rfl
  · simp only [beq_false_of_ne here, if_neg here]
    rfl

theorem Descent.enter_eq (session : Session) :
    Descent.enter session =
      if Parser.nestingLimit ≤ session.nesting then
        .error (.failed ⟨.nestedTooDeeply, session.current.span⟩) session
      else .ok () session.openLevel := by
  have looked : (get : Descent Session) session = .ok session session := rfl
  rw [Descent.enter, Descent.bind_eq, looked]
  simp only
  split <;> rfl

theorem Descent.nested_eq (function : Descent β) (session : Session) :
    Descent.nested function session =
      if Parser.nestingLimit ≤ session.nesting then
        .error (.failed ⟨.nestedTooDeeply, session.current.span⟩) session
      else
        match function session.openLevel with
        | .ok value after => .ok value after.closeLevel
        | .error stop after => .error stop after.closeLevel := by
  rw [Descent.nested, Descent.bind_eq, Descent.enter_eq]
  by_cases full : Parser.nestingLimit ≤ session.nesting
  · rw [if_pos full, if_pos full]
  · rw [if_neg full, if_neg full]
    simp only
    rw [Descent.bind_eq, Descent.attempt]
    cases function session.openLevel <;> rfl

def Behind : Span → Unit → Session → Prop := fun span _ after => after.previousSpan = span

namespace Mirrors

theorem expect (mark : Symbol) :
    Mirrors offset left Behind (Parser.expect mark) (Descent.expect mark) := by
  intro session nextId stands
  rw [Descent.expect, Descent.bind_eq, Descent.accept_eq]
  by_cases here : session.current.kind = .symbol mark
  · have more : session.current.kind.isEnd = false := by rw [here]; rfl
    have front : frontKind (session.cursor nextId).rest = .symbol mark :=
      Session.frontKind_rest.trans here
    rw [Parser.run_expect_of_eq front, Session.current_cursor, Session.cursor_advance, if_pos here]
    exact .accepted (Session.previousSpan_advance more) stands.leads_advance
  · have front : frontKind (session.cursor nextId).rest ≠ .symbol mark :=
      fun same => here (Session.frontKind_rest.symm.trans same)
    rw [Parser.expect, Parser.run_current_bind, Parser.run_accept_bind_of_ne front, if_neg here]
    exact unexpected (.symbol mark) session nextId stands

/-- A function one level further in mirrors a parser that opens one level more. -/
theorem nested {parser : Parser α} {function : Descent β} {f : α → β}
    (inner : Mirrors offset left (Made f) parser function) :
    Mirrors offset (left + 1) (Made f) parser (Descent.nested function) := by
  intro session nextId stands
  have room : session.nesting < Parser.nestingLimit := by
    have level := stands.level
    omega
  have opened : session.openLevel.At offset left nextId :=
    ⟨stands.ids, by have level := stands.level; simp only [Session.openLevel]; omega⟩
  have agrees := inner session.openLevel nextId opened
  have same : session.openLevel.cursor nextId = session.cursor nextId := rfl
  have closes {cursor : Cursor} {after : Session}
      (leads : session.openLevel.Leads offset cursor after) :
      session.Leads offset cursor after.closeLevel := by
    have nesting := leads.nesting
    have deeper := leads.deeper
    have bounded := leads.bounded
    simp only [Session.openLevel] at nesting deeper bounded
    refine ⟨leads.tokens, leads.rest, leads.ids, ?_, ?_, ?_⟩ <;> simp only [Session.closeLevel] <;>
      omega
  rw [same] at agrees
  rw [Descent.nested_eq, if_neg (Nat.not_le_of_lt room)]
  generalize parser.run (session.cursor nextId) = reply at agrees ⊢
  generalize function session.openLevel = outcome at agrees ⊢
  cases agrees with
  | accepted related leads => exact .accepted related (closes leads)
  | refused leads => exact .refused (closes leads)

theorem nested_zero (function : Descent β) :
    Mirrors offset 0 relate (Parser.refuse .nestedTooDeeply) (Descent.nested function) := by
  intro session nextId stands
  have full : Parser.nestingLimit ≤ session.nesting := Nat.le_of_eq stands.level.symm
  rw [Descent.nested_eq, if_pos full, Parser.run_refuse, Session.current_cursor]
  exact .refused stands.leads

end Mirrors

end Agreement

end ContractExpr
