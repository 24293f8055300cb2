import ContractExpr.Expr
import ContractExpr.ParseError
/-! # Parsers over a cursor

A cursor is a place in a list of tokens with the next free identity. A parser moves a cursor and
replies with a value or an error; either way the reply holds the cursor it reached, from which a
later parser goes on. By its type no parser moves back or reuses an identity, so the loop
`Parser.extendWhile`, which takes a token in every round, ends.
-/
set_option autoImplicit false

namespace ContractExpr

structure Cursor where
  /-- The tokens not yet read; comments are left out and the end token is the last. -/
  rest : List Token
  nextId : Nat
  deriving DecidableEq, Repr, Inhabited

namespace Cursor

def current (cursor : Cursor) : Token := cursor.rest.headD ⟨.endOfInput, Span.placeholder⟩

/-- The cursor behind the current token. The end token is never passed. -/
def advance (cursor : Cursor) : Cursor :=
  if cursor.current.kind.isEnd then cursor else ⟨cursor.rest.tail, cursor.nextId⟩

/-- The later cursor has no token that the earlier one has not, and no smaller identity. -/
structure Reaches (earlier later : Cursor) : Prop where
  rest : later.rest <:+ earlier.rest
  ids : earlier.nextId ≤ later.nextId

namespace Reaches

theorem refl (cursor : Cursor) : cursor.Reaches cursor := ⟨List.suffix_rfl, Nat.le_refl _⟩

theorem trans {first second third : Cursor} (near : first.Reaches second)
    (far : second.Reaches third) : first.Reaches third :=
  ⟨far.rest.trans near.rest, Nat.le_trans near.ids far.ids⟩

end Reaches

theorem reaches_advance (cursor : Cursor) : cursor.Reaches cursor.advance := by
  unfold advance
  split
  · exact Reaches.refl cursor
  · exact ⟨List.tail_suffix _, Nat.le_refl _⟩

end Cursor

inductive Reply (α : Type) where
  | accepted (value : α) (after : Cursor)
  | refused (error : ParseError) (after : Cursor)

namespace Reply

def after {α : Type} : Reply α → Cursor
  | .accepted _ after => after
  | .refused _ after => after

def toExcept {α : Type} : Reply α → Except ParseError α
  | .accepted value _ => .ok value
  | .refused error _ => .error error

end Reply

structure Parser (α : Type) where
  run : Cursor → Reply α
  reaches : ∀ cursor : Cursor, cursor.Reaches (run cursor).after

namespace Parser

variable {α β γ : Type}

protected def pure (value : α) : Parser α :=
  ⟨fun cursor => .accepted value cursor, fun cursor => Cursor.Reaches.refl cursor⟩

def bindRun (first : Parser α) (next : α → Parser β) (cursor : Cursor) : Reply β :=
  match first.run cursor with
  | .accepted value after => (next value).run after
  | .refused error after => .refused error after

theorem reaches_bindRun (first : Parser α) (next : α → Parser β) (cursor : Cursor) :
    cursor.Reaches (bindRun first next cursor).after := by
  have near := first.reaches cursor
  unfold bindRun
  split <;> rename_i result <;> rw [result] at near
  · exact near.trans ((next _).reaches _)
  · exact near

protected def bind (first : Parser α) (next : α → Parser β) : Parser β :=
  ⟨bindRun first next, reaches_bindRun first next⟩

instance : Monad Parser where
  pure := Parser.pure
  bind := Parser.bind

/-! ## Steps -/

def current : Parser Token :=
  ⟨fun cursor => .accepted cursor.current cursor, fun cursor => Cursor.Reaches.refl cursor⟩

def advance : Parser Unit :=
  ⟨fun cursor => .accepted () cursor.advance, Cursor.reaches_advance⟩

def fresh (span : Span) : Parser Info :=
  ⟨fun cursor => .accepted ⟨cursor.nextId, span⟩ ⟨cursor.rest, cursor.nextId + 1⟩,
    fun _ => ⟨List.suffix_rfl, Nat.le_succ _⟩⟩

def fail (error : ParseError) : Parser α :=
  ⟨fun cursor => .refused error cursor, fun cursor => Cursor.Reaches.refl cursor⟩

def refuse (cause : ParseError.Cause) : Parser α := do
  let token ← current
  fail ⟨cause, token.span⟩

def unexpected (expected : Expectation) : Parser α := do
  let token ← current
  match token.kind with
  | .endOfInput => refuse (.unexpectedEnd expected)
  | .malformed error => refuse (.malformedToken error)
  | found => refuse (.unexpectedToken expected found)

def isAt (mark : Symbol) : Parser Bool := do
  let token ← current
  return token.kind == .symbol mark

/-- Moves behind the given symbol if it is there, and tells whether it was. -/
def accept (mark : Symbol) : Parser Bool := do
  if ← isAt mark then
    advance
    return true
  else
    return false

def expect (mark : Symbol) : Parser Span := do
  let token ← current
  if ← accept mark then return token.span else unexpected (.symbol mark)

/-! ## The loop -/

/-- A parser that was run behind a token leaves fewer tokens than the token began. -/
theorem after_shorter (parser : Parser α) (token : Token) (rest : List Token) (nextId : Nat) :
    (parser.run ⟨rest, nextId⟩).after.rest.length < (token :: rest).length :=
  Nat.lt_succ_of_le (parser.reaches ⟨rest, nextId⟩).rest.length_le

/-- Extends a value while the current token asks for it; each round takes that token first. -/
def extendRun (continues : Token.Kind → Option γ) (extend : α → γ → Token → Parser α) (value : α) :
    List Token → Nat → Reply α
  | [], nextId => .accepted value ⟨[], nextId⟩
  | token :: rest, nextId =>
    match continues token.kind with
    | none => .accepted value ⟨token :: rest, nextId⟩
    | some found =>
      match _result : (extend value found token).run ⟨rest, nextId⟩ with
      | .accepted extended after => extendRun continues extend extended after.rest after.nextId
      | .refused error after => .refused error after
termination_by tokens => tokens.length
decreasing_by
  have shorter := after_shorter (extend value found token) token rest nextId
  rw [_result] at shorter
  exact shorter

theorem reaches_extendRun (continues : Token.Kind → Option γ) (extend : α → γ → Token → Parser α)
    (value : α) (tokens : List Token) (nextId : Nat) :
    Cursor.Reaches ⟨tokens, nextId⟩ (extendRun continues extend value tokens nextId).after := by
  fun_induction extendRun continues extend value tokens nextId with
  | case1 value nextId => exact Cursor.Reaches.refl _
  | case2 value token rest nextId stops => exact Cursor.Reaches.refl _
  | case3 value token rest nextId found continued extended after result induction =>
    have near := (extend value found token).reaches ⟨rest, nextId⟩
    rw [result] at near
    have first : Cursor.Reaches ⟨token :: rest, nextId⟩ ⟨rest, nextId⟩ :=
      ⟨List.suffix_cons token rest, Nat.le_refl _⟩
    exact (first.trans near).trans induction
  | case4 value token rest nextId found continued error after result =>
    have near := (extend value found token).reaches ⟨rest, nextId⟩
    rw [result] at near
    have first : Cursor.Reaches ⟨token :: rest, nextId⟩ ⟨rest, nextId⟩ :=
      ⟨List.suffix_cons token rest, Nat.le_refl _⟩
    exact first.trans near

def extendWhile (continues : Token.Kind → Option γ) (extend : α → γ → Token → Parser α)
    (value : α) : Parser α :=
  ⟨fun cursor => extendRun continues extend value cursor.rest cursor.nextId,
    fun cursor => reaches_extendRun continues extend value cursor.rest cursor.nextId⟩

end Parser
end ContractExpr
