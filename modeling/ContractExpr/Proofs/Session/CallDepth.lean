import ContractExpr.Proofs.Grammar
import ContractExpr.Proofs.Session.Agreement
import ContractExpr.Proofs.Session.Congruence

/-! # How many calls are enough

Within a level a function calls another one only for a form inside its own or for a tighter
operator. So the limit on levels bounds the calls that are active at once: where that many are
allowed, the functions are the same whatever stands below them, and they call each other.
-/

set_option autoImplicit false

namespace ContractExpr

namespace Descent

variable {α β : Type} {left : Nat}

/-! ## Functions that do the same within some levels -/

/-- In every session that can open no more than so many levels the functions do the same, and they
close the levels that they open. -/
def Coincide (left : Nat) (function other : Descent α) : Prop :=
  ∀ session : Session, Parser.nestingLimit ≤ session.nesting + left →
    function session = other session ∧
      ∀ value after, function session = .ok value after → after.nesting = session.nesting

namespace Coincide

theorem fail (stop : Stop) : Coincide left (throw stop : Descent α) (throw stop) :=
  fun _ _ => ⟨rfl, nofun⟩

theorem step {value : Session → α} {move : Session → Session}
    (still : ∀ session, (move session).nesting = session.nesting) :
    Coincide left (fun session => .ok (value session) (move session) : Descent α)
      (fun session => .ok (value session) (move session)) := by
  intro session room
  refine ⟨rfl, fun result after ended => ?_⟩
  cases ended
  exact still session

theorem bind {function other : Descent α} {next next' : α → Descent β}
    (begun : Coincide left function other)
    (behind : ∀ value, Coincide left (next value) (next' value)) :
    Coincide left (function >>= next) (other >>= next') := by
  intro session room
  obtain ⟨same, level⟩ := begun session room
  rw [bind_eq, bind_eq, ← same]
  cases outcome : function session with
  | error stop after => exact ⟨rfl, nofun⟩
  | ok value middle =>
      have still : middle.nesting = session.nesting := level value middle outcome
      obtain ⟨further, level'⟩ := behind value middle (by omega)
      exact ⟨further, fun result after ended => (level' result after ended).trans still⟩

theorem congruence : Congruence (Coincide left) where
  pure value := step fun _ => rfl
  fail := fail
  peek := step fun _ => rfl
  advance := step fun session => by
    unfold Session.advance
    split <;> rfl
  previousSpan := step fun _ => rfl
  fresh _ := step fun _ => rfl
  roundLimit := step fun _ => rfl
  bind := bind

theorem nested_zero (function other : Descent α) : Coincide 0 (nested function) (nested other) := by
  intro session full
  rw [Nat.add_zero] at full
  rw [nested_eq, nested_eq, if_pos full, if_pos full]
  exact ⟨rfl, nofun⟩

theorem nested {function other : Descent α} (inner : Coincide left function other) :
    Coincide (left + 1) (nested function) (nested other) := by
  intro session room
  rw [nested_eq, nested_eq]
  by_cases full : Parser.nestingLimit ≤ session.nesting
  · rw [if_pos full, if_pos full]
    exact ⟨rfl, nofun⟩
  · have opened : session.openLevel.nesting = session.nesting + 1 := rfl
    obtain ⟨same, level⟩ := inner session.openLevel (by omega)
    rw [if_neg full, if_neg full, ← same]
    refine ⟨rfl, fun result after ended => ?_⟩
    cases outcome : function session.openLevel with
    | error stop last => simp [outcome] at ended
    | ok value last =>
        rw [outcome] at ended
        cases ended
        have closed : last.closeLevel.nesting = last.nesting - 1 := rfl
        have still := level result last outcome
        omega

end Coincide

/-! ## Counting calls -/

namespace Calls

/-- The functions that may have so many calls active before those of the record are called. -/
def above (bottom : Calls) : Nat → Calls
  | 0 => bottom
  | depth + 1 => (bottom.above depth).outer

theorem within_eq_above (depth : Nat) : within depth = none.above depth := by
  induction depth with
  | zero => rfl
  | succ depth ih => rw [within, above, ih]

theorem above_add (bottom : Calls) (near far : Nat) :
    bottom.above (near + far) = (bottom.above near).above far := by
  induction far with
  | zero => rfl
  | succ far ih => rw [above, ← ih, ← Nat.add_assoc, above]

/-- So many calls are enough for the functions of two records to coincide. A level takes seventeen
of them: each function needs more than those that it calls on the same level, and an expression
that opens another level needs more than any function needs without it. -/
structure Enough (depth : Nat) (calls other : Calls) : Prop where
  expression : ∀ left, 17 * left + 1 ≤ depth → Coincide left calls.expression other.expression
  arguments : ∀ left, 17 * left + 2 ≤ depth → Coincide left calls.arguments other.arguments
  fields : ∀ left, 17 * left + 2 ≤ depth → Coincide left calls.fields other.fields
  primary : ∀ left, 17 * left + 3 ≤ depth → Coincide left calls.primary other.primary
  suffixed : ∀ left, 17 * left + 4 ≤ depth → Coincide left calls.suffixed other.suffixed
  signed : ∀ left, 17 * left + 5 ≤ depth → Coincide left calls.signed other.signed
  binary : ∀ left least, 17 * left + 6 + (Precedence.sign - least) ≤ depth →
    Coincide left (calls.binary least) (other.binary least)
  conditional : ∀ left, 17 * left + 17 ≤ depth →
    Coincide left calls.conditional other.conditional

theorem Enough.outer {depth : Nat} {calls other : Calls} (inner : Enough depth calls other) :
    Enough (depth + 1) calls.outer other.outer where
  expression left enough := by
    cases left with
    | zero => exact .nested_zero _ _
    | succ left => exact (inner.conditional left (by omega)).nested
  arguments left enough := Coincide.congruence.list (inner.expression left (by omega))
  fields left enough :=
    Coincide.congruence.list (Coincide.congruence.field (inner.expression left (by omega)))
  primary left enough := Coincide.congruence.primary (inner.expression left (by omega))
    (inner.arguments left (by omega)) (inner.fields left (by omega))
  suffixed left enough := Coincide.congruence.suffixed (inner.primary left (by omega))
    (inner.arguments left (by omega))
  signed left enough := by
    refine Coincide.congruence.signed (inner.suffixed left (by omega)) ?_
    cases left with
    | zero => exact .nested_zero _ _
    | succ left => exact (inner.signed left (by omega)).nested
  binary left least enough := by
    refine Coincide.congruence.binary (inner.signed left (by omega)) fun op strong => ?_
    have weak := op.precedence_lt_sign
    exact inner.binary left _ (by omega)
  conditional left enough := by
    have near : Precedence.sign - Precedence.loosestBinary = 10 := rfl
    exact Coincide.congruence.conditional (inner.binary left _ (by omega))
      (inner.expression left (by omega))

theorem above_enough (bottom other : Calls) (depth : Nat) :
    Enough depth (bottom.above depth) (other.above depth) := by
  induction depth with
  | zero =>
      refine ⟨?_, ?_, ?_, ?_, ?_, ?_, ?_, ?_⟩
      all_goals
        intros
        omega
  | succ depth ih => exact ih.outer

end Calls

/-- No session can open more levels than the limit. -/
theorem Coincide.eq {function other : Descent α}
    (same : Coincide Parser.nestingLimit function other) : function = other :=
  funext fun session => (same session (Nat.le_add_left _ _)).1

namespace Calls

theorem Enough.eq {calls other : Calls} (enough : Enough callDepth calls other) :
    calls = other := by
  have limit : Parser.nestingLimit = 100 := rfl
  have calls : callDepth = 2020 := rfl
  have strengths : Precedence.sign = 12 := rfl
  obtain ⟨expression, arguments, fields, primary, suffixed, signed, binary, conditional⟩ := enough
  rw [mk.injEq]
  exact ⟨(expression _ (by omega)).eq, (conditional _ (by omega)).eq,
    funext fun least => (binary _ least (by omega)).eq, (signed _ (by omega)).eq,
    (suffixed _ (by omega)).eq, (primary _ (by omega)).eq, (arguments _ (by omega)).eq,
    (fields _ (by omega)).eq⟩

/-- The functions below so many calls are never reached. -/
theorem above_callDepth (bottom : Calls) (more : Nat) :
    bottom.above (callDepth + more) = within callDepth := by
  rw [Nat.add_comm, above_add, within_eq_above]
  exact (above_enough _ _ _).eq

theorem above_of_outer_eq {calls : Calls} (closed : calls.outer = calls) (depth : Nat) :
    calls.above depth = calls := by
  induction depth with
  | zero => rfl
  | succ depth ih => rw [above, ih, closed]

/-- There is one record of functions that call each other. -/
theorem outer_eq_iff {calls : Calls} : calls.outer = calls ↔ calls = within callDepth := by
  constructor
  · intro closed
    rw [← above_callDepth calls 0, above_of_outer_eq closed]
  · rintro rfl
    rw [← within, within_eq_above]
    exact above_callDepth none 1

end Calls
end Descent
end ContractExpr
