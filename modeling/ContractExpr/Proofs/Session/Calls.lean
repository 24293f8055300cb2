import ContractExpr.Proofs.Parser.Exactness
import ContractExpr.Proofs.Session.Levels

/-! # Calls one after the other

A parser can be called again whatever its earlier calls answered. All that a call finds of them is
where the session stands and which identities are used up: it answers what the first call of a
session of its own would answer on the tokens that are left.
-/

set_option autoImplicit false

namespace ContractExpr

open Token

/-! ## At the end of the input -/

namespace Parser

variable {α β : Type} {cursor : Cursor} {error : ParseError}

theorem run_bind_of_refused {first : Parser α} {after : Cursor}
    (refused : first.run cursor = .refused error after) (next : α → Parser β) :
    (first >>= next).run cursor = .refused error after := by
  rw [run_bind, refused]

theorem run_binary_of_refused {operand : Parser Expr} {least : Nat} {after : Cursor}
    (bound : least ≤ Precedence.sign) (refused : operand.run cursor = .refused error after) :
    (binary operand least).run cursor = .refused error after := by
  rw [binary_run_eq_climb operand bound]
  exact run_bind_of_refused refused _

theorem run_input_of_end (isEnd : cursor.current.kind = .endOfInput) :
    input.run cursor = .refused ⟨.unexpectedEnd .expression, cursor.current.span⟩ cursor := by
  have primary (expression : Parser Expr) : (primary expression).run cursor =
      .refused ⟨.unexpectedEnd .expression, cursor.current.span⟩ cursor := by
    rw [Parser.primary, run_current_bind, isEnd]
    simp only [unexpected, run_current_bind, isEnd, run_refuse]
  have operand (left : Nat) : (Level.withLeft left).operand.run cursor =
      .refused ⟨.unexpectedEnd .expression, cursor.current.span⟩ cursor := by
    obtain ⟨inner, operand⟩ := operand_withLeft left
    rw [operand, signed, run_current_bind, isEnd]
    exact run_bind_of_refused (primary _) _
  have chain : (binary (Level.withLeft (nestingLimit - 1)).operand Precedence.loosestBinary).run
      cursor = .refused ⟨.unexpectedEnd .expression, cursor.current.span⟩ cursor :=
    run_binary_of_refused (by decide) (operand _)
  exact run_bind_of_refused (run_bind_of_refused chain _) _

end Parser

/-! ## The end token -/

theorem EndsOnce.findIdx_eq {tokens : List Token} (ends : EndsOnce tokens) :
    tokens.findIdx (fun token => token.kind.isEnd) + 1 = tokens.length := by
  obtain ⟨earlier, last, rfl, isEnd, noEnd⟩ := ends
  have none : earlier.findIdx (fun token => token.kind.isEnd) = earlier.length :=
    List.findIdx_eq_length.mpr noEnd
  rw [List.findIdx_append, none, if_neg (Nat.lt_irrefl _), List.findIdx_cons, isEnd,
    List.length_append, List.length_singleton]
  simp only [cond_true, Nat.zero_add]

namespace Session

variable {session : Session}

def endPosition (session : Session) : Nat := session.tokens.findIdx fun token => token.kind.isEnd

theorem endPosition_lt (session : Session) : session.endPosition < session.tokens.length :=
  Nat.lt_of_succ_le (Nat.le_of_eq session.ends.findIdx_eq)

def endToken (session : Session) : Token :=
  session.tokens.get ⟨session.endPosition, session.endPosition_lt⟩

theorem position_le_endPosition (session : Session) : session.position ≤ session.endPosition := by
  have inside := session.inside
  have last : session.endPosition + 1 = session.tokens.length := session.ends.findIdx_eq
  omega

theorem position_add_length_rest (session : Session) :
    session.position + session.rest.length = session.tokens.length := by
  have inside := session.inside
  rw [rest, List.length_drop]
  omega

theorem current_of_end (isEnd : session.current.kind.isEnd = true) :
    session.current = session.endToken := by
  have reached : session.endPosition ≤ session.position := by
    refine Nat.le_of_not_lt fun before => ?_
    have more := List.not_of_lt_findIdx before
    exact absurd isEnd (Bool.eq_false_iff.mp more)
  have same : session.position = session.endPosition :=
    Nat.le_antisymm session.position_le_endPosition reached
  simp only [current, endToken, same]

/-! ## Calls -/

def answer (session : Session) : Except Stop Expr :=
  match session.parse with
  | .ok tree _ => .ok tree
  | .error stop _ => .error stop

def next (session : Session) : Session :=
  match session.parse with
  | .ok _ after => after
  | .error _ after => after

def after (session : Session) : Nat → Session
  | 0 => session
  | calls + 1 => session.next.after calls

/-- What the parser of a whole input replies on the tokens that are left, identities from one on. -/
def reply (session : Session) : Reply Expr := Parser.input.run (session.cursor 1)

theorem reply_of_rest_eq {other : Session} (same : other.rest = session.rest) :
    other.reply = session.reply := by
  rw [reply, reply, cursor, cursor, same]

theorem reply_of_end (isEnd : session.current.kind.isEnd = true) :
    session.reply =
      .refused ⟨.unexpectedEnd .expression, session.endToken.span⟩ (session.cursor 1) := by
  have front : (session.cursor 1).current = session.current := current_cursor
  have here : (session.cursor 1).current.kind = .endOfInput := by
    rw [front, Kind.eq_of_isEnd isEnd]
  rw [reply, Parser.run_input_of_end here, front, current_of_end isEnd]

structure Idle (session : Session) : Prop where
  closed : session.nesting = 0
  positive : 1 ≤ session.nextId
  bounded : session.deepest ≤ Parser.nestingLimit

theorem idle_ofTokens {tokens : List Token} (ends : EndsOnce tokens) : (ofTokens tokens ends).Idle :=
  ⟨rfl, Nat.le_refl _, Nat.zero_le _⟩

namespace Idle

/-- A call answers what the parser replies, and leaves the session where the parser stopped. -/
theorem call (idle : session.Idle) :
    session.answer =
      (session.reply.toExcept.map (Expr.shift (session.nextId - 1))).mapError Stop.failed ∧
    session.Leads (session.nextId - 1) session.reply.after session.next := by
  have stands : session.At (session.nextId - 1) Parser.nestingLimit 1 :=
    ⟨by have positive := idle.positive; omega, by rw [idle.closed, Nat.zero_add]⟩
  have agrees := Mirrors.input session 1 stands
  rw [answer, next, parse, reply]
  generalize Parser.input.run (session.cursor 1) = reply at agrees ⊢
  generalize Descent.complete _ session = outcome at agrees ⊢
  cases agrees with
  | accepted related leads => exact ⟨congrArg Except.ok related, leads⟩
  | refused leads => exact ⟨rfl, leads⟩

variable (idle : session.Idle)

include idle

theorem answer_eq : session.answer =
    (session.reply.toExcept.map (Expr.shift (session.nextId - 1))).mapError Stop.failed :=
  idle.call.1

theorem leads : session.Leads (session.nextId - 1) session.reply.after session.next := idle.call.2

theorem next : session.next.Idle where
  closed := idle.leads.nesting.trans idle.closed
  positive := by
    have ids := idle.leads.ids
    have counted : 1 ≤ session.reply.after.nextId :=
      (Parser.input.reaches (session.cursor 1)).ids
    omega
  bounded := Nat.le_trans idle.leads.bounded (Nat.max_le.mpr ⟨idle.bounded, Nat.le_refl _⟩)

theorem after (calls : Nat) : (session.after calls).Idle := by
  induction calls generalizing session with
  | zero => exact idle
  | succ calls ih => exact ih idle.next

/-! ## One call -/

theorem position_le : session.position ≤ session.next.position := by
  have shorter : session.reply.after.rest.length ≤ session.rest.length :=
    (Parser.input.reaches (session.cursor 1)).rest.length_le
  have here := session.position_add_length_rest
  have there := session.next.position_add_length_rest
  rw [idle.leads.tokens, idle.leads.rest] at there
  omega

theorem nextId_le : session.nextId ≤ session.next.nextId := by
  have ids := idle.leads.ids
  have counted : 1 ≤ session.reply.after.nextId := (Parser.input.reaches (session.cursor 1)).ids
  omega

theorem rest_of_still (still : session.next.position = session.position) :
    session.next.rest = session.rest := by
  rw [rest, rest, still, idle.leads.tokens]

theorem not_exhausted : session.answer ≠ .error .exhausted := by
  rw [idle.answer_eq]
  cases session.reply <;> simp [Reply.toExcept, Except.map, Except.mapError]

/-- A session of its own for the tokens that are left gives the same answer and moves as far. -/
theorem restart_call :
    session.answer = session.restart.answer.map (Expr.shift (session.nextId - 1)) ∧
    session.next.position = session.position + session.restart.next.position ∧
    session.next.nextId = session.restart.next.nextId + (session.nextId - 1) := by
  have fresh : session.restart.Idle := idle_ofTokens _
  have same : session.restart.reply = session.reply := reply_of_rest_eq rfl
  refine ⟨?_, ?_, ?_⟩
  · have first : session.restart.nextId - 1 = 0 := rfl
    rw [idle.answer_eq, fresh.answer_eq, same, first, Expr.shift_zero]
    cases session.reply <;> rfl
  · have here := session.position_add_length_rest
    have there := session.next.position_add_length_rest
    have alone := session.restart.next.position_add_length_rest
    have tokens : session.restart.tokens = session.rest := rfl
    rw [idle.leads.tokens, idle.leads.rest] at there
    rw [fresh.leads.tokens, fresh.leads.rest, same, tokens] at alone
    omega
  · rw [idle.leads.ids, fresh.leads.ids, same]
    rfl

/-! ## Later calls -/

theorem after_of_still (still : session.next.rest = session.rest) (later : Nat) :
    (session.after later).rest = session.rest := by
  induction later generalizing session with
  | zero => rfl
  | succ later ih =>
      have again : session.next.next.rest = session.next.rest := by
        rw [idle.next.leads.rest, reply_of_rest_eq still, ← idle.leads.rest]
      exact (ih idle.next again).trans still

theorem nextId_of_still (still : session.reply.after = session.cursor 1) (later : Nat) :
    (session.after later).nextId = session.nextId := by
  induction later generalizing session with
  | zero => rfl
  | succ later ih =>
      have rest : session.next.rest = session.rest := by rw [idle.leads.rest, still, cursor]
      have again : session.next.reply.after = session.next.cursor 1 := by
        rw [reply_of_rest_eq rest, still, cursor, cursor, rest]
      have untaken : session.next.nextId = session.nextId := by
        have ids := idle.leads.ids
        have positive := idle.positive
        have first : session.reply.after.nextId = 1 := by rw [still]; rfl
        omega
      exact (ih idle.next again).trans untaken

theorem tokens_after (later : Nat) : (session.after later).tokens = session.tokens := by
  induction later generalizing session with
  | zero => rfl
  | succ later ih => exact (ih idle.next).trans idle.leads.tokens

theorem position_of_rest_eq {later : Nat} (same : (session.after later).rest = session.rest) :
    (session.after later).position = session.position := by
  have here := session.position_add_length_rest
  have there := (session.after later).position_add_length_rest
  rw [idle.tokens_after, same] at there
  omega

theorem error_after {stop : Stop} (failed : session.answer = .error stop)
    (still : session.next.position = session.position) (later : Nat) :
    (session.after later).answer = .error stop ∧
      (session.after later).position = session.position := by
  have same := idle.after_of_still (idle.rest_of_still still) later
  refine ⟨?_, idle.position_of_rest_eq same⟩
  rw [idle.answer_eq] at failed
  rw [(idle.after later).answer_eq, reply_of_rest_eq same]
  cases reply : session.reply with
  | accepted tree after =>
      rw [reply] at failed
      cases failed
  | refused error after =>
      rw [reply] at failed
      exact failed

theorem after_of_end (isEnd : session.current.kind.isEnd = true) (later : Nat) :
    (session.after later).answer =
      .error (.failed ⟨.unexpectedEnd .expression, session.endToken.span⟩) ∧
    (session.after later).position = session.position ∧
    (session.after later).nextId = session.nextId := by
  have reply := reply_of_end isEnd
  have still : session.next.rest = session.rest := by
    rw [idle.leads.rest, reply]
    rfl
  have same := idle.after_of_still still later
  refine ⟨?_, idle.position_of_rest_eq same, idle.nextId_of_still (by rw [reply]; rfl) later⟩
  rw [(idle.after later).answer_eq, reply_of_rest_eq same, reply]
  rfl

theorem end_of_ok {tree : Expr} (ok : session.answer = .ok tree) :
    session.next.current.kind.isEnd = true := by
  rw [idle.answer_eq] at ok
  cases reply : session.reply with
  | refused error after =>
      rw [reply] at ok
      cases ok
  | accepted value after =>
      have front := (Parser.accepted_complete reply).2
      have rest := idle.leads.rest
      rw [reply, Reply.after] at rest
      rw [← rest, frontKind_rest] at front
      rw [front]
      rfl

end Idle

/-! ## Sessions -/

/-- The first call reads the source as a whole. -/
theorem answer_ofSource (source : String) :
    (ofSource source).answer = (Expr.parse source).mapError Stop.failed := by
  have idle : (ofSource source).Idle := idle_ofTokens _
  have first : (ofSource source).nextId - 1 = 0 := rfl
  have reply : (ofSource source).reply.toExcept = Expr.parse source := rfl
  rw [idle.answer_eq, first, Expr.shift_zero, reply]
  cases Expr.parse source <;> rfl

/-- What a call finds of the calls before it, and what it leaves for the calls behind it. -/
structure LeaksNothing (session : Session) : Prop where
  closed : session.nesting = 0 ∧ session.next.nesting = 0
  /-- At no time up to the end of the call were more levels open. -/
  bounded : session.next.deepest ≤ Parser.nestingLimit
  tokens : session.next.tokens = session.tokens
  position : session.position ≤ session.next.position ∧
    session.next.position ≤ session.endPosition
  ids : 1 ≤ session.nextId ∧ session.nextId ≤ session.next.nextId
  /-- The call ends with a tree or an error. -/
  answered : session.answer ≠ .error .exhausted
  /-- The call answers and moves as one of a session of its own for the tokens that are left. -/
  fresh : session.answer = session.restart.answer.map (Expr.shift (session.nextId - 1)) ∧
    session.next.position = session.position + session.restart.next.position ∧
    session.next.nextId = session.restart.next.nextId + (session.nextId - 1)
  /-- A call that fails where it began is repeated by all later ones. -/
  stuck : ∀ stop, session.answer = .error stop → session.next.position = session.position →
    ∀ later, (session.after later).answer = .error stop ∧
      (session.after later).position = session.position
  /-- Behind a call that gave a tree nothing is left to read. -/
  done : ∀ tree, session.answer = .ok tree → ∀ later,
    (session.next.after later).answer =
      .error (.failed ⟨.unexpectedEnd .expression, session.endToken.span⟩) ∧
    (session.next.after later).position = session.next.position ∧
    (session.next.after later).nextId = session.next.nextId

theorem endToken_of_tokens_eq {other : Session} (same : other.tokens = session.tokens) :
    other.endToken = session.endToken := by
  simp only [endToken, endPosition, same]
  exact List.getElem_of_eq same _

/-- Whatever source a session reads and however often it was called, its next call leaks nothing. -/
theorem calls_leak_nothing (source : String) (calls : Nat) :
    ((ofSource source).after calls).LeaksNothing := by
  have idle : ((ofSource source).after calls).Idle := (idle_ofTokens _).after calls
  generalize (ofSource source).after calls = session at idle
  have tokens : session.next.tokens = session.tokens := idle.leads.tokens
  have within : session.next.endPosition = session.endPosition := by
    rw [endPosition, endPosition, tokens]
  exact {
    closed := ⟨idle.closed, idle.next.closed⟩
    bounded := idle.next.bounded
    tokens := tokens
    position := ⟨idle.position_le, within ▸ session.next.position_le_endPosition⟩
    ids := ⟨idle.positive, idle.nextId_le⟩
    answered := idle.not_exhausted
    fresh := idle.restart_call
    stuck := fun stop failed still later => idle.error_after failed still later
    done := fun tree ok later => by
      rw [← endToken_of_tokens_eq tokens]
      exact idle.next.after_of_end (idle.end_of_ok ok) later }

end Session
end ContractExpr
