import ContractExpr.Proofs.Parser.NestingLimit
import ContractExpr.Proofs.Session.Calls
import ContractExpr.Proofs.Session.Raising

/-! # How many levels a source needs

The peak of a source is the greatest number of levels that are open at once while it is read. It is
what the source needs: a parser accepts the source if it may open so many levels, and no parser does
that may open fewer.
-/

set_option autoImplicit false

namespace ContractExpr

/-- The greatest number of levels that are open at once while a session reads the source. -/
def Session.peak (source : String) : Nat := (ofSource source).next.deepest

namespace Expr

/-- The parsers that accept the source are those that may open so many levels. -/
def Needs (source : String) (levels : Nat) : Prop :=
  ∀ limit : Nat,
    (∃ tree after, (Parser.complete (Parser.expressionWithin limit)).run (Cursor.ofSource source) =
      .accepted tree after) ↔ levels ≤ limit

theorem Needs.unique {source : String} {levels levels' : Nat} (needs : Needs source levels)
    (needs' : Needs source levels') : levels = levels' :=
  Nat.le_antisymm ((needs levels').mp ((needs' levels').mpr (Nat.le_refl _)))
    ((needs' levels).mp ((needs levels).mpr (Nat.le_refl _)))

theorem parse_ofSource {source : String} {tree : Expr} (read : parse source = .ok tree) :
    ∃ after : Session, (Session.ofSource source).parse = .ok tree after ∧
      after.deepest = Session.peak source := by
  have answer := Session.answer_ofSource source
  rw [read, Session.answer] at answer
  cases outcome : (Session.ofSource source).parse with
  | ok given after =>
      rw [outcome] at answer
      cases answer
      exact ⟨after, rfl, by rw [Session.peak, Session.next, outcome]⟩
  | error stop after =>
      rw [outcome] at answer
      cases answer

/-- A lower limit is a session with the levels between the limits open from its beginning on. -/
theorem accepts_iff_peak_le {source : String} {tree : Expr} {limit : Nat}
    (read : parse source = .ok tree) (lower : limit ≤ Parser.nestingLimit) :
    (∃ given after, (Parser.complete (Parser.expressionWithin limit)).run (Cursor.ofSource source) =
      .accepted given after) ↔ Session.peak source ≤ limit := by
  obtain ⟨last, ended, peak⟩ := parse_ofSource read
  obtain ⟨extra, total⟩ := Nat.exists_eq_add_of_le lower
  have stands : ((Session.ofSource source).raise extra).At 0 limit 1 := by
    refine ⟨rfl, ?_⟩
    show 0 + extra + limit = _
    omega
  have agrees := Mirrors.complete _ 1 stands
  have same : ((Session.ofSource source).raise extra).cursor 1 = Cursor.ofSource source := rfl
  have raised : Raised extra (Session.ofSource source) _ _ := Raises.complete Descent.callDepth _
  rw [same] at agrees
  have outcome : Descent.complete (.within Descent.callDepth) (Session.ofSource source) =
    .ok tree last := ended
  rw [outcome] at raised
  generalize (Parser.complete (Parser.expressionWithin limit)).run (Cursor.ofSource source) = reply
    at agrees ⊢
  generalize Descent.complete (.within Descent.callDepth) ((Session.ofSource source).raise extra) =
    outcome' at agrees raised
  cases raised with
  | ok returns room =>
      have began : (Session.ofSource source).deepest = 0 := rfl
      cases agrees with
      | @accepted given _ cursor _ related leads =>
          exact iff_of_true ⟨given, cursor, rfl⟩ (by omega)
  | crowded returns noRoom =>
      cases agrees with
      | refused leads => exact iff_of_false (by simp) (by omega)

theorem peak_le (source : String) : Session.peak source ≤ Parser.nestingLimit :=
  (Session.idle_ofTokens _).next.bounded

theorem needs_peak {source : String} {tree : Expr} (read : parse source = .ok tree) :
    Needs source (Session.peak source) := by
  intro limit
  rcases Nat.le_total limit Parser.nestingLimit with lower | higher
  · exact accepts_iff_peak_le read lower
  · obtain ⟨after, accepted⟩ := parse_eq_ok.mp read
    refine iff_of_true ⟨tree, after, ?_⟩ (Nat.le_trans (peak_le source) higher)
    exact (Parser.complete_restricts higher).accepted accepted

theorem accepted_peak {source : String} {tree : Expr} (read : parse source = .ok tree) :
    ∃ after, (Parser.complete (Parser.expressionWithin (Session.peak source))).run
      (Cursor.ofSource source) = .accepted tree after := by
  obtain ⟨given, after, accepted⟩ := (needs_peak read _).mpr (Nat.le_refl _)
  obtain ⟨after', accepted'⟩ := parse_eq_ok.mp read
  have high := (Parser.complete_restricts (peak_le source)).accepted accepted
  cases high.symm.trans accepted'
  exact ⟨after, accepted⟩

end Expr
end ContractExpr
