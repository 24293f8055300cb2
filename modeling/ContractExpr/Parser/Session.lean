import ContractExpr.Parser.Grammar
/-! # Sessions

A session keeps the state of a parser from call to call: the tokens of a source, the index of the
current one, the next free identity and a counter of the levels that are open. The index never
passes the end token, which is the last one. `Descent` is the monad of functions that change a
session and may fail; a failing function leaves the session as it was when it failed.
-/
set_option autoImplicit false

namespace ContractExpr

/-! ## Tokens with one end -/

/-- The last token is an end token, and it is the only one. -/
def EndsOnce (tokens : List Token) : Prop :=
  ∃ earlier last, tokens = earlier ++ [last] ∧ last.kind.isEnd = true ∧
    ∀ token ∈ earlier, token.kind.isEnd = false

namespace EndsOnce

variable {tokens : List Token} {index : Nat}

theorem next_inside (ends : EndsOnce tokens) (inside : index < tokens.length)
    (more : (tokens.get ⟨index, inside⟩).kind.isEnd = false) : index + 1 < tokens.length := by
  obtain ⟨earlier, last, rfl, isEnd, noEnd⟩ := ends
  rw [List.length_append, List.length_singleton] at inside ⊢
  rcases Nat.lt_or_ge index earlier.length with before | behind
  · omega
  · have same : index = earlier.length := by omega
    subst same
    simp [isEnd] at more

theorem drop (ends : EndsOnce tokens) (inside : index < tokens.length) :
    EndsOnce (tokens.drop index) := by
  obtain ⟨earlier, last, rfl, isEnd, noEnd⟩ := ends
  rw [List.length_append, List.length_singleton] at inside
  refine ⟨earlier.drop index, last, List.drop_append_of_le_length (by omega), isEnd, ?_⟩
  exact fun token member => noEnd token (List.mem_of_mem_drop member)

theorem filter (ends : EndsOnce tokens) {kept : Token → Bool}
    (keepsEnd : ∀ token : Token, token.kind.isEnd = true → kept token = true) :
    EndsOnce (tokens.filter kept) := by
  obtain ⟨earlier, last, rfl, isEnd, noEnd⟩ := ends
  refine ⟨earlier.filter kept, last, ?_, isEnd, ?_⟩
  · simp [keepsEnd last isEnd]
  · exact fun token member => noEnd token (List.mem_filter.mp member).1

theorem length_pos (ends : EndsOnce tokens) : 0 < tokens.length := by
  obtain ⟨earlier, last, rfl, _⟩ := ends
  simp

end EndsOnce

theorem Reader.tokens_endsOnce (reader : Reader) : EndsOnce reader.tokens := by
  fun_induction Reader.tokens reader with
  | case1 reader step isEnd => exact ⟨[], step.1, rfl, isEnd, by simp⟩
  | case2 reader step more ih =>
      obtain ⟨earlier, last, whole, isEnd, noEnd⟩ := ih
      refine ⟨step.1 :: earlier, last, by rw [whole]; rfl, isEnd, ?_⟩
      exact List.forall_mem_cons.mpr ⟨Bool.eq_false_iff.mpr more, noEnd⟩

theorem Cursor.ofSource_endsOnce (source : String) : EndsOnce (Cursor.ofSource source).rest := by
  apply (Reader.ofString source).tokens_endsOnce.filter
  intro token isEnd
  cases kind : token.kind <;> simp_all [Token.Kind.isEnd, Token.Kind.isComment]

/-! ## The state -/

structure Session where
  /-- All tokens of the source, comments left out. -/
  tokens : List Token
  /-- The index of the current token. -/
  position : Nat
  nextId : Nat
  /-- The number of levels that are open. -/
  nesting : Nat
  /-- The greatest number of levels that were open at once so far. -/
  deepest : Nat
  inside : position < tokens.length
  ends : EndsOnce tokens
  counted : nesting ≤ deepest

namespace Session

def ofTokens (tokens : List Token) (ends : EndsOnce tokens) : Session :=
  ⟨tokens, 0, 1, 0, 0, ends.length_pos, ends, Nat.le_refl _⟩

def ofSource (source : String) : Session :=
  ofTokens (Cursor.ofSource source).rest (Cursor.ofSource_endsOnce source)

def current (session : Session) : Token := session.tokens.get ⟨session.position, session.inside⟩

/-- The tokens from the current one on. -/
def rest (session : Session) : List Token := session.tokens.drop session.position

/-- A session of its own for the tokens from the current one on. -/
def restart (session : Session) : Session :=
  ofTokens session.rest (session.ends.drop session.inside)

def advance (session : Session) : Session :=
  if more : session.current.kind.isEnd = false then
    { session with
      position := session.position + 1
      inside := session.ends.next_inside session.inside more }
  else session

def previousSpan (session : Session) : Span :=
  if 0 < session.position then
    (session.tokens.get ⟨session.position - 1,
      Nat.lt_of_le_of_lt (Nat.sub_le _ _) session.inside⟩).span
  else Span.placeholder

def openLevel (session : Session) : Session :=
  { session with
    nesting := session.nesting + 1
    deepest := max session.deepest (session.nesting + 1)
    counted := Nat.le_max_right _ _ }

def closeLevel (session : Session) : Session :=
  { session with
    nesting := session.nesting - 1
    counted := Nat.le_trans (Nat.sub_le _ _) session.counted }

def takeId (session : Session) : Session := { session with nextId := session.nextId + 1 }

end Session

/-! ## Functions on sessions -/

inductive Stop where
  | failed (error : ParseError)
  /-- The calls or rounds that were allowed are used up. -/
  | exhausted

abbrev Descent (α : Type) : Type := EStateM Stop Session α

namespace Descent

variable {α : Type}

def peek : Descent Token := return (← get).current

def advance : Descent Unit := modify Session.advance

def previousSpan : Descent Span := return (← get).previousSpan

def fresh (span : Span) : Descent Info := do
  let session ← get
  set session.takeId
  return ⟨session.nextId, span⟩

def fail (error : ParseError) : Descent α := throw (.failed error)

def refuse (cause : ParseError.Cause) : Descent α := do
  let token ← peek
  fail ⟨cause, token.span⟩

def unexpected (expected : Expectation) : Descent α := do
  let token ← peek
  match token.kind with
  | .endOfInput => refuse (.unexpectedEnd expected)
  | .malformed error => refuse (.malformedToken error)
  | found => refuse (.unexpectedToken expected found)

def isAt (mark : Symbol) : Descent Bool := do
  let token ← peek
  return token.kind == .symbol mark

def accept (mark : Symbol) : Descent Bool := do
  if ← isAt mark then
    advance
    return true
  else return false

def expect (mark : Symbol) : Descent Unit := do
  if ← accept mark then return () else unexpected (.symbol mark)

def enter : Descent Unit := do
  let session ← get
  if Parser.nestingLimit ≤ session.nesting then refuse .nestedTooDeeply
  else set session.openLevel

def attempt (function : Descent α) : Descent (Except Stop α) := fun session =>
  match function session with
  | .ok value after => .ok (.ok value) after
  | .error stop after => .ok (.error stop) after

/-- Calls a function one level further in. The level is closed again before the function's failure
is passed on. -/
def nested (function : Descent α) : Descent α := do
  enter
  let outcome ← attempt function
  modify Session.closeLevel
  match outcome with
  | .ok value => return value
  | .error stop => throw stop

/-- Does rounds until one is the last, at most the given number. -/
def rounds (round : α → Descent (ForInStep α)) : Nat → α → Descent α
  | 0, _ => throw .exhausted
  | left + 1, value => do
    match ← round value with
    | .done result => return result
    | .yield next => rounds round left next

/-- A loop. There are no more rounds than tokens, since every round but the last takes one. -/
def loop (round : α → Descent (ForInStep α)) (value : α) : Descent α := do
  rounds round (← get).tokens.length value

end Descent
end ContractExpr
