import ContractExpr.Roundtrip

/-! # What a check does with a front-end

A check depends on the answers of the front-end only. A front-end with a state whose answers do not
depend on the state is checked as one without a state.
-/

set_option autoImplicit false

namespace ContractExpr.Frontend

/-! ## Front-ends without a state -/

theorem check_plain (plain : Frontend Id) (expr : Expr) :
    plain.check expr =
      let first : String := plain.render expr
      match plain.parse first with
      | .error error => .error (.unparseable first error)
      | .ok reparsed =>
        let second : String := plain.render reparsed
        if first ≠ second then .error (.notIdempotent first second)
        else if expr.alike reparsed then .ok ()
        else .error (.structuralMismatch first reparsed) := rfl

section Plain

variable {plain : Frontend Id} {expr : Expr}

theorem check_of_refused {error : ParseError}
    (failed : plain.parse (plain.render expr) = .error error) :
    plain.check expr = .error (.unparseable (plain.render expr) error) := by
  rw [check_plain]
  simp only [failed]

theorem check_of_stable {read : Expr} (parsed : plain.parse (plain.render expr) = .ok read)
    (stable : plain.render expr = plain.render read) :
    plain.check expr =
      if expr.alike read then .ok ()
      else .error (.structuralMismatch (plain.render expr) read) := by
  rw [check_plain]
  simp only [parsed]
  rw [if_neg (not_not_intro stable)]

end Plain

/-! ## Front-ends with a state -/

section Stateful

variable {σ α β : Type}

theorem fst_bind (first : StateM σ α) (next : α → StateM σ β) (state : σ) :
    ((first >>= next) state).1 = (next (first state).1 (first state).2).1 := rfl

variable {frontend : Frontend (StateM σ)}

theorem check_of_changed {expr read : Expr} {state rendered parsed : σ} {first : String}
    (begins : frontend.render expr state = (first, rendered))
    (reads : frontend.parse first rendered = (.ok read, parsed))
    (changed : first ≠ (frontend.render read parsed).1) :
    (frontend.check expr state).1 =
      .error (.notIdempotent first (frontend.render read parsed).1) := by
  rw [Frontend.check, fst_bind, fst_bind, begins, reads]
  simp only [fst_bind]
  rw [if_pos changed]
  rfl

/-- In every state the front-end answers as the other one does, which has no state. -/
structure Answers (frontend : Frontend (StateM σ)) (plain : Frontend Id) : Prop where
  render : ∀ expr state, (frontend.render expr state).1 = plain.render expr
  parse : ∀ source state, (frontend.parse source state).1 = plain.parse source

theorem Answers.check {plain : Frontend Id} (answers : frontend.Answers plain) (expr : Expr)
    (state : σ) : (frontend.check expr state).1 = plain.check expr := by
  rw [Frontend.check, fst_bind, fst_bind, answers.render, answers.parse, check_plain]
  cases parsed : plain.parse (plain.render expr) with
  | error error =>
      simp only [parsed]
      rfl
  | ok reparsed =>
      simp only [parsed, fst_bind, answers.render]
      split
      · rfl
      · split <;> rfl

end Stateful

end ContractExpr.Frontend
