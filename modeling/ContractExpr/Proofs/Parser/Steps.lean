import ContractExpr.Parser.Grammar

/-! # What the steps of a parser do

One equation for each step, in front of whatever follows it, and one rule for the loop. A run of
tokens that a parser moves over is described by its kinds alone, since no step looks at spans to
decide anything.
-/

set_option autoImplicit false

namespace ContractExpr

open Token

/-! ## Runs of tokens -/

/-- The later tokens are what the earlier ones leave behind tokens of the given kinds. -/
def Between (earlier : List Token) (kinds : List Kind) (later : List Token) : Prop :=
  ∃ taken : List Token, earlier = taken ++ later ∧ taken.map Token.kind = kinds

namespace Between

variable {earlier middle later : List Token} {kinds further : List Kind}

theorem refl (tokens : List Token) : Between tokens [] tokens := ⟨[], rfl, rfl⟩

theorem trans (near : Between earlier kinds middle) (far : Between middle further later) :
    Between earlier (kinds ++ further) later := by
  obtain ⟨taken, rfl, rfl⟩ := near
  obtain ⟨taken', rfl, rfl⟩ := far
  exact ⟨taken ++ taken', by simp, by simp⟩

theorem cons (token : Token) (rest : Between earlier kinds later) :
    Between (token :: earlier) (token.kind :: kinds) later := by
  obtain ⟨taken, rfl, rfl⟩ := rest
  exact ⟨token :: taken, rfl, rfl⟩

theorem split (whole : Between earlier (kinds ++ further) later) :
    ∃ middle, Between earlier kinds middle ∧ Between middle further later := by
  obtain ⟨taken, rfl, kindsExact⟩ := whole
  obtain ⟨before, behind, rfl, rfl, rfl⟩ := List.map_eq_append_iff.mp kindsExact
  exact ⟨behind ++ later, ⟨before, by simp, rfl⟩, ⟨behind, rfl, rfl⟩⟩

theorem uncons {kind : Kind} (whole : Between earlier (kind :: kinds) later) :
    ∃ token rest, earlier = token :: rest ∧ token.kind = kind ∧ Between rest kinds later := by
  obtain ⟨taken, rfl, kindsExact⟩ := whole
  obtain ⟨token, rest, rfl, rfl, rfl⟩ := List.map_eq_cons_iff.mp kindsExact
  exact ⟨token, rest ++ later, rfl, rfl, rest, rfl, rfl⟩

theorem eq_of_nil (whole : Between earlier [] later) : earlier = later := by
  obtain ⟨taken, rfl, kindsExact⟩ := whole
  rw [List.map_eq_nil_iff] at kindsExact
  simp [kindsExact]

end Between

def frontKind (tokens : List Token) : Kind := (tokens.headD ⟨.endOfInput, Span.placeholder⟩).kind

@[simp]
theorem frontKind_cons (token : Token) (rest : List Token) :
    frontKind (token :: rest) = token.kind := rfl

theorem frontKind_of_between {earlier later : List Token} {kind : Kind} {kinds : List Kind}
    (whole : Between earlier (kind :: kinds) later) : frontKind earlier = kind := by
  obtain ⟨token, rest, rfl, rfl, _⟩ := whole.uncons
  rfl

theorem frontKind_of_map_cons {tokens : List Token} {kind : Kind} {kinds : List Kind}
    (shape : tokens.map Token.kind = kind :: kinds) : frontKind tokens = kind := by
  obtain ⟨token, rest, rfl, isKind, _⟩ := List.map_eq_cons_iff.mp shape
  exact isKind

namespace Cursor

theorem current_kind (cursor : Cursor) : cursor.current.kind = frontKind cursor.rest := rfl

theorem between_advance {cursor : Cursor} {kind : Kind} (here : frontKind cursor.rest = kind)
    (more : kind.isEnd = false) : Between cursor.rest [kind] cursor.advance.rest := by
  obtain ⟨rest, nextId⟩ := cursor
  subst here
  cases rest with
  | nil => simp [frontKind, Kind.isEnd] at more
  | cons token rest =>
      have moved : (Cursor.mk (token :: rest) nextId).advance = ⟨rest, nextId⟩ := by
        rw [advance, current_kind, if_neg (by simpa using more)]
        rfl
      rw [moved]
      exact (Between.refl rest).cons token

theorem advance_between {cursor : Cursor} {kind : Kind} {kinds : List Kind} {rest : List Token}
    (between : Between cursor.rest (kind :: kinds) rest) (more : kind.isEnd = false) :
    Between cursor.advance.rest kinds rest := by
  obtain ⟨tokens, nextId⟩ := cursor
  obtain ⟨token, tail, rfl, rfl, further⟩ := between.uncons
  have moved : (Cursor.mk (token :: tail) nextId).advance = ⟨tail, nextId⟩ := by
    rw [advance, current_kind, frontKind_cons, if_neg (by simp [more])]
    rfl
  rw [moved]
  exact further

end Cursor

namespace Parser

variable {α β γ : Type}

/-! ## Steps in front of what follows -/

@[simp]
theorem run_pure (value : α) (cursor : Cursor) :
    (pure value : Parser α).run cursor = .accepted value cursor := rfl

theorem run_bind (first : Parser α) (next : α → Parser β) (cursor : Cursor) :
    (first >>= next).run cursor =
      match first.run cursor with
      | .accepted value after => (next value).run after
      | .refused error after => .refused error after := rfl

theorem run_bind_of_accepted {first : Parser α} {cursor after : Cursor} {value : α}
    (accepted : first.run cursor = .accepted value after) (next : α → Parser β) :
    (first >>= next).run cursor = (next value).run after := by
  rw [run_bind, accepted]

theorem accepted_bind {first : Parser α} {next : α → Parser β} {cursor after : Cursor} {result : β}
    (accepted : (first >>= next).run cursor = .accepted result after) :
    ∃ value middle, first.run cursor = .accepted value middle ∧
      (next value).run middle = .accepted result after := by
  rw [run_bind] at accepted
  cases reply : first.run cursor with
  | accepted value middle => exact ⟨value, middle, rfl, by simpa [reply] using accepted⟩
  | refused error middle => simp [reply] at accepted

@[simp]
theorem run_current_bind (next : Token → Parser β) (cursor : Cursor) :
    (current >>= next).run cursor = (next cursor.current).run cursor := rfl

@[simp]
theorem run_advance_bind (next : Unit → Parser β) (cursor : Cursor) :
    (advance >>= next).run cursor = (next ()).run cursor.advance := rfl

@[simp]
theorem run_fresh_bind (span : Span) (next : Info → Parser β) (cursor : Cursor) :
    (fresh span >>= next).run cursor =
      (next ⟨cursor.nextId, span⟩).run ⟨cursor.rest, cursor.nextId + 1⟩ := rfl

@[simp]
theorem run_isAt_bind (mark : Symbol) (next : Bool → Parser β) (cursor : Cursor) :
    (isAt mark >>= next).run cursor =
      (next (frontKind cursor.rest == .symbol mark)).run cursor := rfl

theorem run_accept_bind_of_eq {mark : Symbol} {cursor : Cursor}
    (here : frontKind cursor.rest = .symbol mark) (next : Bool → Parser β) :
    (accept mark >>= next).run cursor = (next true).run cursor.advance := by
  have accepted : (accept mark).run cursor = .accepted true cursor.advance := by
    simp [accept, here]
  exact run_bind_of_accepted accepted next

theorem run_accept_bind_of_ne {mark : Symbol} {cursor : Cursor}
    (elsewhere : frontKind cursor.rest ≠ .symbol mark) (next : Bool → Parser β) :
    (accept mark >>= next).run cursor = (next false).run cursor := by
  have accepted : (accept mark).run cursor = .accepted false cursor := by
    simp [accept, elsewhere]
  exact run_bind_of_accepted accepted next

theorem run_refuse (cause : ParseError.Cause) (cursor : Cursor) :
    (refuse cause : Parser α).run cursor = .refused ⟨cause, cursor.current.span⟩ cursor := rfl

theorem unexpected_refuses (expected : Expectation) (cursor : Cursor) :
    ∃ error, (unexpected expected : Parser α).run cursor = .refused error cursor := by
  simp only [unexpected, run_current_bind]
  split <;> exact ⟨_, rfl⟩

theorem not_accepted_unexpected {expected : Expectation} {cursor after : Cursor} {value : α} :
    (unexpected expected : Parser α).run cursor ≠ .accepted value after := by
  obtain ⟨error, refused⟩ := unexpected_refuses (α := α) expected cursor
  simp [refused]

theorem run_expect_of_eq {mark : Symbol} {cursor : Cursor}
    (here : frontKind cursor.rest = .symbol mark) :
    (expect mark).run cursor = .accepted cursor.current.span cursor.advance := by
  simp [expect, run_accept_bind_of_eq here]

theorem accepted_expect {mark : Symbol} {cursor after : Cursor} {span : Span}
    (accepted : (expect mark).run cursor = .accepted span after) :
    Between cursor.rest [.symbol mark] after.rest := by
  by_cases here : frontKind cursor.rest = .symbol mark
  · rw [run_expect_of_eq here] at accepted
    cases accepted
    exact Cursor.between_advance here rfl
  · simp only [expect, run_current_bind, run_accept_bind_of_ne here] at accepted
    exact absurd accepted not_accepted_unexpected

/-! ## The loop -/

section Loop

variable {continues : Kind → Option γ} {extend : α → γ → Token → Parser α}

theorem extendRun_of_none {value : α} {rest : List Token} {nextId : Nat}
    (stops : continues (frontKind rest) = none) :
    extendRun continues extend value rest nextId = .accepted value ⟨rest, nextId⟩ := by
  cases rest with
  | nil => rw [extendRun]
  | cons token rest =>
      rw [frontKind_cons] at stops
      rw [extendRun, stops]

theorem extendRun_of_some {value extended : α} {found : γ} {token : Token} {rest : List Token}
    {nextId : Nat} {after : Cursor} (goesOn : continues token.kind = some found)
    (step : (extend value found token).run ⟨rest, nextId⟩ = .accepted extended after) :
    extendRun continues extend value (token :: rest) nextId =
      extendRun continues extend extended after.rest after.nextId := by
  rw [extendRun, goesOn]
  simp only
  split <;> simp_all

theorem extendRun_of_refused {value : α} {found : γ} {token : Token} {rest : List Token}
    {nextId : Nat} {error : ParseError} {after : Cursor}
    (goesOn : continues token.kind = some found)
    (step : (extend value found token).run ⟨rest, nextId⟩ = .refused error after) :
    extendRun continues extend value (token :: rest) nextId = .refused error after := by
  rw [extendRun, goesOn]
  simp only
  split <;> simp_all

/-- What every round of the loop keeps holds of its result. The invariant speaks of the value, the
kinds of the tokens read for it and the tokens that follow. -/
theorem accepted_extendRun (invariant : α → List Kind → List Token → Prop)
    (step : ∀ {value kinds token rest found nextId extended after},
      invariant value kinds (token :: rest) → continues token.kind = some found →
      (extend value found token).run ⟨rest, nextId⟩ = .accepted extended after →
      ∃ further, Between rest further after.rest ∧
        invariant extended (kinds ++ token.kind :: further) after.rest)
    {value result : α} {kinds : List Kind} {tokens : List Token} {nextId : Nat} {after : Cursor}
    (start : invariant value kinds tokens)
    (accepted : extendRun continues extend value tokens nextId = .accepted result after) :
    ∃ further, Between tokens further after.rest ∧
      invariant result (kinds ++ further) after.rest := by
  fun_induction extendRun continues extend value tokens nextId generalizing kinds with
  | case1 value nextId =>
      cases accepted
      exact ⟨[], Between.refl _, by simpa using start⟩
  | case2 value token rest nextId stops =>
      cases accepted
      exact ⟨[], Between.refl _, by simpa using start⟩
  | case3 value token rest nextId found goesOn extended middle reply ih =>
      obtain ⟨further, between, kept⟩ := step start goesOn reply
      obtain ⟨last, between', result⟩ := ih kept accepted
      refine ⟨token.kind :: (further ++ last), (between.trans between').cons token, ?_⟩
      simpa using result
  | case4 value token rest nextId found goesOn error middle reply => cases accepted

end Loop

/-! ## Chains of binary operators -/

def chainStep (operand : Parser Expr) (left : Expr) (op : BinaryOp) (_ : Token) : Parser Expr := do
  let right ← operand
  return .binary op left right (← fresh (left.span.merge right.span))

theorem leftChain_eq (strength : Nat) (operand : Parser Expr) :
    leftChain strength operand =
      (do
        let first ← operand
        extendWhile (operatorOf? strength) (chainStep operand) first) := rfl

theorem binary_sign (operand : Parser Expr) : binary operand Precedence.sign = operand := rfl

theorem binary_of_lt {operand : Parser Expr} {least : Nat} (below : least < Precedence.sign) :
    binary operand least = leftChain least (binary operand (least + 1)) := by
  have gap : Precedence.sign - least = (Precedence.sign - (least + 1)) + 1 := by omega
  rw [binary, gap, List.range'_succ, List.foldr_cons]
  rfl

theorem operatorOf?_eq_some {strength : Nat} {kind : Kind} {op : BinaryOp}
    (isOperator : operatorOf? strength kind = some op) :
    kind = .symbol op.symbol ∧ op.precedence = strength := by
  obtain ⟨found, strengthExact⟩ := Option.filter_eq_some_iff.mp isOperator
  refine ⟨?_, by simpa using strengthExact⟩
  cases kind with
  | symbol mark =>
      have same := List.find?_some found
      rw [beq_iff_eq] at same
      rw [same]
  | _ => cases found

theorem binaryOp?_symbol (op : BinaryOp) : op.symbol.binaryOp? = some op := by
  cases op <;> rfl

theorem operatorOf?_symbol (op : BinaryOp) :
    operatorOf? op.precedence (.symbol op.symbol) = some op := by
  simp [operatorOf?, Kind.binaryOp?, binaryOp?_symbol]

end Parser
end ContractExpr
