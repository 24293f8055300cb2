import ContractExpr.Proofs.Session.Agreement
import ContractExpr.Proofs.Session.Congruence

/-! # Sessions that begin further in

A session may begin with levels open already, as if its expression stood inside others. A function
then does what it did without them, with so many levels more open throughout, if there is room for
the levels that it opens itself. If there is none it fails.
-/

set_option autoImplicit false

namespace ContractExpr

/-! ## Levels around a session -/

namespace Session

def raise (extra : Nat) (session : Session) : Session :=
  { session with
    nesting := session.nesting + extra
    deepest := session.deepest + extra
    counted := Nat.add_le_add_right session.counted extra }

/-- Between the sessions levels were opened and all of them closed again. -/
structure Returns (before after : Session) : Prop where
  nesting : after.nesting = before.nesting
  deeper : before.deepest ≤ after.deepest

variable {extra : Nat} {session : Session}

theorem Returns.refl (session : Session) : session.Returns session := ⟨rfl, Nat.le_refl _⟩

theorem Returns.trans {first second third : Session} (near : first.Returns second)
    (far : second.Returns third) : first.Returns third :=
  ⟨far.nesting.trans near.nesting, Nat.le_trans near.deeper far.deeper⟩

theorem advance_raise : (session.raise extra).advance = session.advance.raise extra := by
  have here : (session.raise extra).current = session.current := rfl
  by_cases more : session.current.kind.isEnd = false
  · rw [advance, advance, dif_pos more, dif_pos (here ▸ more)]
    rfl
  · rw [advance, advance, dif_neg more, dif_neg (here ▸ more)]

theorem openLevel_raise : (session.raise extra).openLevel = session.openLevel.raise extra := by
  have nesting : session.nesting + extra + 1 = session.nesting + 1 + extra := by omega
  simp only [openLevel, raise, nesting, Nat.add_max_add_right]

theorem closeLevel_raise (opened : 0 < session.nesting) :
    (session.raise extra).closeLevel = session.closeLevel.raise extra := by
  have nesting : session.nesting + extra - 1 = session.nesting - 1 + extra := by omega
  simp only [closeLevel, raise, nesting]

end Session

/-! ## Functions with levels around them -/

variable {α β : Type} {extra : Nat}

inductive Raised (extra : Nat) (before : Session) :
    EStateM.Result Stop Session α → EStateM.Result Stop Session α → Prop where
  | ok {value : α} {after : Session} (returns : before.Returns after)
      (room : after.deepest + extra ≤ max (before.deepest + extra) Parser.nestingLimit) :
      Raised extra before (.ok value after) (.ok value (after.raise extra))
  /-- There is no room for the levels that were opened. -/
  | crowded {value : α} {after raised : Session} {stop : Stop} (returns : before.Returns after)
      (noRoom : Parser.nestingLimit < after.deepest + extra) :
      Raised extra before (.ok value after) (.error stop raised)
  | failed {after raised : Session} {stop stop' : Stop} :
      Raised extra before (.error stop after) (.error stop' raised)

/-- With more levels around its session the function does the same where there is room. -/
def Raises (extra : Nat) (function : Descent α) : Prop :=
  ∀ session : Session, Raised extra session (function session) (function (session.raise extra))

theorem Raised.returns {before after : Session} {value : α}
    {raised : EStateM.Result Stop Session α}
    (related : Raised extra before (.ok value after) raised) : before.Returns after := by
  cases related <;> assumption

theorem Raised.from_returns {before middle : Session}
    {outcome raised : EStateM.Result Stop Session α} (returns : before.Returns middle)
    (room : middle.deepest + extra ≤ max (before.deepest + extra) Parser.nestingLimit)
    (behind : Raised extra middle outcome raised) : Raised extra before outcome raised := by
  cases behind with
  | ok returns' room' => exact .ok (returns.trans returns') (by omega)
  | crowded returns' noRoom => exact .crowded (returns.trans returns') noRoom
  | failed => exact .failed

namespace Raises

theorem pure (value : α) : Raises extra (pure value) :=
  fun session => .ok (.refl session) (Nat.le_max_left _ _)

theorem fail (stop : Stop) : Raises extra (throw stop : Descent α) := fun _ => .failed

theorem bind {function : Descent α} {continuation : α → Descent β} (begun : Raises extra function)
    (behind : ∀ value, Raises extra (continuation value)) :
    Raises extra (function >>= continuation) := by
  intro session
  have first := begun session
  rw [Descent.bind_eq, Descent.bind_eq]
  generalize function session = outcome at first ⊢
  generalize function (session.raise extra) = raised at first ⊢
  cases first with
  | @ok value after returns room => exact (behind value after).from_returns returns room
  | @crowded value after raised stop returns noRoom =>
      -- the function goes on in the session without the levels, which forgets none that was open
      have further := behind value after
      simp only
      cases outcome : continuation value after with
      | error stop after => exact .failed
      | ok result last =>
          rw [outcome] at further
          have deeper := further.returns.deeper
          exact .crowded (returns.trans further.returns) (by omega)
  | failed => exact .failed

theorem step {value : Session → α} {move : Session → Session}
    (seen : ∀ session, value (session.raise extra) = value session)
    (moved : ∀ session, move (session.raise extra) = (move session).raise extra)
    (still : ∀ session, (move session).nesting = session.nesting ∧
      (move session).deepest = session.deepest) :
    Raises extra (fun session => .ok (value session) (move session) : Descent α) := by
  intro session
  obtain ⟨nesting, deepest⟩ := still session
  simp only [seen, moved]
  exact .ok ⟨nesting, Nat.le_of_eq deepest.symm⟩ (deepest ▸ Nat.le_max_left _ _)

theorem advance : Raises extra Descent.advance := by
  refine step (fun _ => rfl) (fun _ => Session.advance_raise) fun session => ?_
  unfold Session.advance
  split <;> exact ⟨rfl, rfl⟩

/-- Steps and sequences do the same with more levels around, so they keep this of a function. -/
theorem congruence :
    Descent.Congruence fun function other => function = other ∧ Raises extra function where
  pure value := ⟨rfl, pure value⟩
  fail stop := ⟨rfl, fail stop⟩
  peek := ⟨rfl, step (fun _ => rfl) (fun _ => rfl) fun _ => ⟨rfl, rfl⟩⟩
  advance := ⟨rfl, advance⟩
  previousSpan := ⟨rfl, step (fun _ => rfl) (fun _ => rfl) fun _ => ⟨rfl, rfl⟩⟩
  fresh _ := ⟨rfl, step (fun _ => rfl) (fun _ => rfl) fun _ => ⟨rfl, rfl⟩⟩
  roundLimit := ⟨rfl, step (fun _ => rfl) (fun _ => rfl) fun _ => ⟨rfl, rfl⟩⟩
  bind := by
    rintro _ _ function _ next next' ⟨rfl, begun⟩ behind
    obtain rfl : next = next' := funext fun value => (behind value).1
    exact ⟨rfl, begun.bind fun value => (behind value).2⟩

theorem nested {function : Descent α} (inner : Raises extra function) :
    Raises extra (Descent.nested function) := by
  intro session
  have opened := inner session.openLevel
  rw [Descent.nested_eq, Descent.nested_eq, Session.openLevel_raise]
  have nesting : (session.raise extra).nesting = session.nesting + extra := rfl
  have deepest : session.openLevel.deepest = max session.deepest (session.nesting + 1) := rfl
  by_cases full : Parser.nestingLimit ≤ session.nesting
  · rw [if_pos full, if_pos (by omega)]
    exact .failed
  · rw [if_neg full]
    have closes {after : Session} (returns : session.openLevel.Returns after) :
        session.Returns after.closeLevel ∧ 0 < after.nesting := by
      have level : after.nesting = session.nesting + 1 := returns.nesting
      have deeper : session.openLevel.deepest ≤ after.closeLevel.deepest := returns.deeper
      have closed : after.closeLevel.nesting = after.nesting - 1 := rfl
      exact ⟨⟨by omega, by omega⟩, by omega⟩
    by_cases crowded : Parser.nestingLimit ≤ (session.raise extra).nesting
    · rw [if_pos crowded]
      cases outcome : function session.openLevel with
      | error stop after => exact .failed
      | ok value after =>
          rw [outcome] at opened
          have deeper : session.openLevel.deepest ≤ after.closeLevel.deepest :=
            opened.returns.deeper
          exact .crowded (closes opened.returns).1 (by omega)
    · rw [if_neg crowded]
      generalize function session.openLevel = outcome at opened ⊢
      generalize function (session.openLevel.raise extra) = raised at opened ⊢
      cases opened with
      | @ok value after returns room =>
          simp only [Session.closeLevel_raise (closes returns).2]
          have same : after.closeLevel.deepest = after.deepest := rfl
          exact .ok (closes returns).1 (by omega)
      | crowded returns noRoom => exact .crowded (closes returns).1 noRoom
      | failed => exact .failed

end Raises

structure Descent.Calls.Raise (extra : Nat) (calls : Descent.Calls) : Prop where
  expression : Raises extra calls.expression
  conditional : Raises extra calls.conditional
  binary : ∀ least, Raises extra (calls.binary least)
  signed : Raises extra calls.signed
  suffixed : Raises extra calls.suffixed
  primary : Raises extra calls.primary
  arguments : Raises extra calls.arguments
  fields : Raises extra calls.fields

namespace Raises

theorem outer {calls : Descent.Calls} (raise : calls.Raise extra) : calls.outer.Raise extra where
  expression := raise.conditional.nested
  conditional := (congruence.conditional ⟨rfl, raise.binary _⟩ ⟨rfl, raise.expression⟩).2
  binary _ := (congruence.binary ⟨rfl, raise.signed⟩ fun _ _ => ⟨rfl, raise.binary _⟩).2
  signed := (congruence.signed ⟨rfl, raise.suffixed⟩ ⟨rfl, raise.signed.nested⟩).2
  suffixed := (congruence.suffixed ⟨rfl, raise.primary⟩ ⟨rfl, raise.arguments⟩).2
  primary := (congruence.primary ⟨rfl, raise.expression⟩ ⟨rfl, raise.arguments⟩
    ⟨rfl, raise.fields⟩).2
  arguments := (congruence.list ⟨rfl, raise.expression⟩).2
  fields := (congruence.list (congruence.field ⟨rfl, raise.expression⟩)).2

theorem within (depth : Nat) : (Descent.Calls.within depth).Raise extra := by
  induction depth with
  | zero =>
      exact ⟨fail _, fail _, fun _ => fail _, fail _, fail _, fail _, fail _, fail _⟩
  | succ depth ih => exact outer ih

theorem complete (depth : Nat) : Raises extra (Descent.complete (.within depth)) :=
  (congruence.complete ⟨rfl, (within depth).expression⟩).2

end Raises
end ContractExpr
