import ContractExpr.Proofs.Session.Agreement
import ContractExpr.Proofs.Token.Kinds

/-! # Loops on sessions

The rounds of a loop on a session do what the loop of a parser does. A session has more tokens left
than there will be rounds, so the rounds are never used up.
-/

set_option autoImplicit false

namespace ContractExpr

open Token

section Loops

variable {α β γ : Type} {offset left nextId : Nat} {f : α → β} {session : Session}

theorem Session.length_rest_advance (more : session.current.kind.isEnd = false) :
    session.rest.length = session.advance.rest.length + 1 := by
  rw [rest_of_more more, List.length_cons]

theorem Session.length_rest_pos (session : Session) : 0 < session.rest.length := by
  rw [rest_eq_cons]
  exact Nat.succ_pos _

theorem Session.length_rest_le (session : Session) :
    session.rest.length ≤ session.tokens.length := by
  rw [rest, List.length_drop]
  exact Nat.sub_le _ _

theorem Descent.rounds_succ (round : β → Descent (ForInStep β)) (count : Nat) (value : β)
    (session : Session) :
    Descent.rounds round (count + 1) value session =
      match round value session with
      | .ok (.done result) after => .ok result after
      | .ok (.yield next) after => Descent.rounds round count next after
      | .error stop after => .error stop after := by
  rw [Descent.rounds, Descent.bind_eq]
  cases round value session with
  | error stop after => rfl
  | ok step after => cases step <;> rfl

/-! ## Values that are extended -/

/-- Rounds that extend a value as the loop of a parser does agree with it. -/
theorem agrees_rounds {continues : Kind → Option γ} {extend : α → γ → Token → Parser α}
    {round : β → Descent (ForInStep β)} (noEnd : continues .endOfInput = none)
    (stop : ∀ value session, continues session.current.kind = none →
      round (f value) session = .ok (.done (f value)) session)
    (step : ∀ value found session nextId, session.At offset left nextId →
      continues session.current.kind = some found →
      Agrees offset (Made (ForInStep.yield ∘ f)) session
        ((extend value found session.current).run (session.advance.cursor nextId))
        (round (f value) session))
    (count : Nat) (value : α) (stands : session.At offset left nextId)
    (enough : session.rest.length ≤ count) :
    Agrees offset (Made f) session
      (Parser.extendRun continues extend value session.rest nextId)
      (Descent.rounds round count (f value) session) := by
  induction count generalizing value session nextId with
  | zero => exact absurd session.length_rest_pos (Nat.not_lt_of_le enough)
  | succ count ih =>
      rw [Descent.rounds_succ]
      cases goesOn : continues session.current.kind with
      | none =>
          have front : continues (frontKind session.rest) = none := by
            rw [Session.frontKind_rest, goesOn]
          rw [Parser.extendRun_of_none front, stop value session goesOn]
          exact .accepted rfl stands.leads
      | some found =>
          have more : session.current.kind.isEnd = false := by
            cases isEnd : session.current.kind.isEnd with
            | false => rfl
            | true =>
                rw [Kind.eq_of_isEnd isEnd, noEnd] at goesOn
                cases goesOn
          have agrees := step value found session nextId stands goesOn
          have shorter : _ ≤ session.advance.rest.length :=
            ((extend value found session.current).reaches
              (session.advance.cursor nextId)).rest.length_le
          have fewer := Session.length_rest_advance more
          rw [Session.rest_of_more more]
          generalize reply : (extend value found session.current).run
            (session.advance.cursor nextId) = answer at agrees shorter
          generalize round (f value) session = outcome at agrees ⊢
          cases agrees with
          | @accepted extended given cursor after related leads =>
              cases related
              have behind := ih extended (leads.stands stands) (by
                rw [leads.rest]
                simp only [Reply.after] at shorter
                omega)
              rw [Parser.extendRun_of_some goesOn reply, ← leads.rest]
              exact behind.from_leads leads
          | refused leads =>
              rw [Parser.extendRun_of_refused goesOn reply]
              exact .refused leads

/-! ## Lists -/

theorem Parser.extendRun_cons {continues : Kind → Option γ} {extend : α → γ → Token → Parser α}
    {value : α} {found : γ} {token : Token} (rest : List Token) (nextId : Nat)
    (goesOn : continues token.kind = some found) :
    extendRun continues extend value (token :: rest) nextId =
      (extend value found token >>= extendWhile continues extend).run ⟨rest, nextId⟩ := by
  rw [run_bind]
  cases reply : (extend value found token).run ⟨rest, nextId⟩ with
  | accepted extended after => exact extendRun_of_some goesOn reply
  | refused error after => exact extendRun_of_refused goesOn reply

def listTail (close : Symbol) (single : Parser α) (items : List α) : Parser (List α) := do
  let first ← Parser.item close single items
  Parser.extendWhile (fun kind => if kind = .symbol .comma then some () else none)
    (fun items _ _ => Parser.item close single items) first

section Lists

variable {close : Symbol} {single : Parser α} {item : Descent β}

theorem Descent.listRound_of_close {items : List β}
    (closes : session.current.kind = .symbol close) :
    Descent.listRound close item items session = .ok (.done items) session := by
  rw [Descent.listRound, Descent.bind_eq, Descent.isAt_eq]
  simp only [closes, beq_self_eq_true, if_true]
  rfl

theorem Descent.listRound_of_more {items : List β}
    (more : session.current.kind ≠ .symbol close) :
    Descent.listRound close item items session =
      match item session with
      | .ok given after =>
        if after.current.kind = .symbol .comma then .ok (.yield (items ++ [given])) after.advance
        else .ok (.done (items ++ [given])) after
      | .error stop after => .error stop after := by
  rw [Descent.listRound, Descent.bind_eq, Descent.isAt_eq]
  simp only [beq_false_of_ne more, Bool.false_eq_true, if_false]
  rw [Descent.bind_eq]
  cases item session with
  | error stop after => rfl
  | ok given after =>
      simp only
      rw [Descent.bind_eq, Descent.accept_eq]
      by_cases comma : after.current.kind = .symbol .comma
      · rw [if_pos comma, if_pos comma]
        rfl
      · rw [if_neg comma, if_neg comma]
        rfl

theorem run_listTail_of_close {items : List α} (noComma : close ≠ .comma)
    (closes : session.current.kind = .symbol close) :
    (listTail close single items).run (session.cursor nextId) =
      .accepted items (session.cursor nextId) := by
  have front : frontKind (session.cursor nextId).rest = .symbol close :=
    Session.frontKind_rest.trans closes
  rw [listTail, Parser.run_bind, Parser.item, Parser.run_isAt_bind, front]
  simp only [beq_self_eq_true, if_true, Parser.run_pure]
  apply Parser.extendRun_of_none
  rw [front]
  exact if_neg (by simpa using noComma)

theorem run_listTail_of_more {items : List α} (more : session.current.kind ≠ .symbol close) :
    (listTail close single items).run (session.cursor nextId) =
      match single.run (session.cursor nextId) with
      | .accepted value after =>
        Parser.extendRun (fun kind => if kind = .symbol .comma then some () else none)
          (fun items _ _ => Parser.item close single items) (items ++ [value]) after.rest
          after.nextId
      | .refused error after => .refused error after := by
  have front : frontKind (session.cursor nextId).rest ≠ .symbol close :=
    fun same => more (Session.frontKind_rest.symm.trans same)
  rw [listTail, Parser.run_bind, Parser.item, Parser.run_isAt_bind]
  simp only [beq_false_of_ne front, Bool.false_eq_true, if_false]
  rw [Parser.run_bind]
  cases single.run (session.cursor nextId) <;> rfl

/-- The rounds of a list begin with an item, and those of the parser with the comma behind one. -/
theorem agrees_listRounds (noComma : close ≠ .comma)
    (inner : Mirrors offset left (Made f) single item) (count : Nat)
    (items : List α) (stands : session.At offset left nextId)
    (enough : session.rest.length ≤ count) :
    Agrees offset (Made (List.map f)) session
      ((listTail close single items).run (session.cursor nextId))
      (Descent.rounds (Descent.listRound close item) count (items.map f) session) := by
  induction count generalizing items session nextId with
  | zero => exact absurd session.length_rest_pos (Nat.not_lt_of_le enough)
  | succ count ih =>
      rw [Descent.rounds_succ]
      by_cases closes : session.current.kind = .symbol close
      · rw [Descent.listRound_of_close closes, run_listTail_of_close noComma closes]
        exact .accepted rfl stands.leads
      · rw [Descent.listRound_of_more closes, run_listTail_of_more closes]
        have shorter := (single.reaches (session.cursor nextId)).rest.length_le
        have begun := inner session nextId stands
        generalize single.run (session.cursor nextId) = reply at begun shorter ⊢
        generalize item session = outcome at begun ⊢
        cases begun with
        | refused leads => exact .refused leads
        | @accepted value given cursor after related leads =>
            cases related
            have stood := leads.stands stands
            have appended : (items ++ [value]).map f = items.map f ++ [f value] := by simp
            simp only
            rw [← leads.rest]
            by_cases comma : after.current.kind = .symbol .comma
            · have more : after.current.kind.isEnd = false := by rw [comma]; rfl
              have fewer := Session.length_rest_advance more
              have left : cursor.rest.length ≤ session.rest.length := shorter
              rw [← leads.rest] at left
              have behind := ih (items ++ [value]) (stood.leads_advance.stands stood) (by omega)
              rw [appended] at behind
              rw [if_pos comma, Session.rest_of_more more,
                Parser.extendRun_cons _ _ (if_pos comma)]
              exact behind.from_leads (leads.trans stood.leads_advance)
            · rw [if_neg comma, Parser.extendRun_of_none
                (by rw [Session.frontKind_rest]; exact if_neg comma), ← appended]
              exact .accepted rfl (leads.trans stood.leads)

end Lists

end Loops

end ContractExpr
