import ContractExpr.Proofs.Roundtrip.Rendering
import ContractExpr.Roundtrip

/-! # Which trees survive rendering and parsing

A tree survives exactly when it is well named and opens no more levels than the limit allows.
-/

set_option autoImplicit false

namespace ContractExpr.Expr

open Token Grammar

theorem checkRoundtrip_eq (tree : Expr) :
    tree.checkRoundtrip =
      match parse tree.render with
      | .error error => .error (.unparseable tree.render error)
      | .ok read =>
        if tree.render ≠ read.render then .error (.notIdempotent tree.render read.render)
        else if tree.alike read then .ok () else .error (.structuralMismatch tree.render read) := by
  rfl

theorem checkRoundtrip_of_error {tree : Expr} {error : ParseError}
    (failed : parse tree.render = .error error) :
    tree.checkRoundtrip = .error (.unparseable tree.render error) := by
  rw [checkRoundtrip_eq, failed]

theorem checkRoundtrip_eq_ok {tree : Expr} :
    tree.checkRoundtrip = .ok () ↔
      ∃ read, parse tree.render = .ok read ∧ tree.alike read = true := by
  rw [checkRoundtrip_eq]
  cases parsed : parse tree.render with
  | error error => simp
  | ok read =>
      by_cases same : tree.alike read = true
      · simp [same, render_eq_of_alike same]
      · by_cases text : tree.render = read.render <;> simp [same, text]

/-- A tree that survives is well named. -/
theorem wellNamed_of_survives {tree read : Expr} (parsed : parse tree.render = .ok read)
    (same : tree.alike read = true) : tree.WellNamed := by
  obtain ⟨kinds, shape, derived⟩ := derives_of_parse parsed
  have derivedTree := derived.alike (.expression (alike_symm same))
  exact wellNamed_of_derives shape derivedTree

theorem checkRoundtrip_of_fits {tree : Expr} (named : tree.WellNamed)
    (fits : tree.levels ≤ Parser.nestingLimit) : tree.checkRoundtrip = .ok () := by
  obtain ⟨read, parsed, same⟩ := parse_render named fits
  exact checkRoundtrip_eq_ok.mpr ⟨read, parsed, alike_symm same⟩

theorem checkRoundtrip_of_deep {tree : Expr} (named : tree.WellNamed)
    (deep : Parser.nestingLimit < tree.levels) :
    ∃ error, tree.checkRoundtrip = .error (.unparseable tree.render error) ∧
      error.cause = .nestedTooDeeply := by
  obtain ⟨error, failed, nested⟩ := parse_render_fails named deep
  exact ⟨error, checkRoundtrip_of_error failed, nested⟩

/-- A tree survives exactly when it is well named and opens no more levels than the limit allows;
when it is well named and opens more, its rendering is nested too deeply to parse. -/
theorem checkRoundtrip_exact (tree : Expr) :
    (tree.checkRoundtrip = .ok () ↔ tree.WellNamed ∧ tree.levels ≤ Parser.nestingLimit) ∧
      (tree.WellNamed → Parser.nestingLimit < tree.levels →
        ∃ error, tree.checkRoundtrip = .error (.unparseable tree.render error) ∧
          error.cause.phrases = ("invalid syntax", "expression nested too deeply")) := by
  constructor
  · constructor
    · intro survives
      obtain ⟨read, parsed, same⟩ := checkRoundtrip_eq_ok.mp survives
      have named := wellNamed_of_survives parsed same
      exact ⟨named, levels_le_of_parse named parsed⟩
    · rintro ⟨named, fits⟩
      exact checkRoundtrip_of_fits named fits
  · intro named deep
    obtain ⟨error, failed, nested⟩ := checkRoundtrip_of_deep named deep
    refine ⟨error, failed, ?_⟩
    rw [nested]
    rfl

def negated : Nat → Expr → Expr
  | 0, tree => tree
  | count + 1, tree => .unary .negate (negated count tree) Info.built

theorem words_negated (count : Nat) (tree : Expr) : (negated count tree).words = tree.words := by
  induction count with
  | zero => rfl
  | succ count ih => rw [negated, words_unary, ih]

theorem levels_negated (count : Nat) {tree : Expr}
    (strong : Precedence.sign ≤ tree.precedence) :
    (negated count tree).levels = tree.levels + count := by
  have step : Precedence.sign ≤ (negated count tree).precedence ∧
      (negated count tree).inside = tree.inside + count := by
    induction count with
    | zero => exact ⟨strong, rfl⟩
    | succ count ih =>
        refine ⟨Nat.le_refl _, ?_⟩
        rw [negated, inside_unary fun isNot => by cases isNot]
        simp [UnaryOp.followsOperand, groupedLevels, Nat.not_lt_of_le ih.1, ih.2]
        omega
  rw [levels, levels, step.2]
  omega

/-- With a hundred signs before a name, one level too many is open. -/
theorem checkRoundtrip_hundred_signs :
    (negated 100 (.identifier "a" Info.built)).WellNamed ∧
      (negated 100 (.identifier "a" Info.built)).levels = 101 ∧
        ∃ error, (negated 100 (.identifier "a" Info.built)).checkRoundtrip =
            .error (.unparseable (negated 100 (.identifier "a" Info.built)).render error) ∧
          error.cause.phrases = ("invalid syntax", "expression nested too deeply") := by
  have named : (negated 100 (.identifier "a" Info.built)).WellNamed := by
    rw [WellNamed, words_negated]
    exact List.forall_mem_singleton.mpr ⟨by decide, by decide⟩
  have deep : (negated 100 (.identifier "a" Info.built)).levels = 101 :=
    levels_negated 100 (Nat.le_add_right Precedence.sign 2)
  have above : Parser.nestingLimit < (negated 100 (.identifier "a" Info.built)).levels := by
    rw [deep]
    decide
  exact ⟨named, deep, (checkRoundtrip_exact _).2 named above⟩

end ContractExpr.Expr
