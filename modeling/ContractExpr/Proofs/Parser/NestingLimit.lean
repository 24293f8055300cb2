import ContractExpr.Proofs.Parser.Steps

/-! # A lower limit on nesting

A parser with fewer levels left does what one with more levels does, or it fails because of the
nesting. This is kept by every way of building parsers.
-/

set_option autoImplicit false

namespace ContractExpr.Parser

open Token

/-- The first parser does what the second does, unless it fails because of the nesting. -/
def Restricts {α : Type} (strict loose : Parser α) : Prop :=
  ∀ cursor, strict.run cursor = loose.run cursor ∨
    ∃ error after, strict.run cursor = .refused error after ∧ error.cause = .nestedTooDeeply

variable {α β γ : Type}

namespace Restricts

theorem refl (parser : Parser α) : Restricts parser parser := fun _ => Or.inl rfl

theorem refuse (loose : Parser α) : Restricts (Parser.refuse .nestedTooDeeply) loose :=
  fun cursor => Or.inr ⟨_, cursor, run_refuse .nestedTooDeeply cursor, rfl⟩

theorem bind {strict loose : Parser α} {next next' : α → Parser β} (first : Restricts strict loose)
    (further : ∀ value, Restricts (next value) (next' value)) :
    Restricts (strict >>= next) (loose >>= next') := by
  intro cursor
  rw [run_bind, run_bind]
  rcases first cursor with same | ⟨error, after, refused, nested⟩
  · rw [same]
    cases loose.run cursor with
    | accepted value after => exact further value after
    | refused error after => exact Or.inl rfl
  · rw [refused]
    exact Or.inr ⟨error, after, rfl, nested⟩

theorem behind {first : Parser α} {next next' : α → Parser β}
    (further : ∀ value, Restricts (next value) (next' value)) :
    Restricts (first >>= next) (first >>= next') :=
  (refl first).bind further

/-- What goes before the same parser is restricted. -/
theorem before {strict loose : Parser α} {next : α → Parser β} (first : Restricts strict loose) :
    Restricts (strict >>= next) (loose >>= next) :=
  first.bind fun value => refl (next value)

theorem extendRun {continues : Kind → Option γ} {extend extend' : α → γ → Token → Parser α}
    (step : ∀ value found token, Restricts (extend value found token) (extend' value found token))
    (value : α) (tokens : List Token) (nextId : Nat) :
    Parser.extendRun continues extend value tokens nextId =
        Parser.extendRun continues extend' value tokens nextId ∨
      ∃ error after, Parser.extendRun continues extend value tokens nextId = .refused error after ∧
        error.cause = .nestedTooDeeply := by
  fun_induction Parser.extendRun continues extend value tokens nextId with
  | case1 value nextId => exact Or.inl (by rw [Parser.extendRun])
  | case2 value token rest nextId stops => exact Or.inl (by rw [Parser.extendRun, stops])
  | case3 value token rest nextId found goesOn extended after reply ih =>
      rcases step value found token ⟨rest, nextId⟩ with same | ⟨error, after', refused, nested⟩
      · rw [extendRun_of_some goesOn (same.symm.trans reply)]
        exact ih
      · rw [reply] at refused
        cases refused
  | case4 value token rest nextId found goesOn error after reply =>
      rcases step value found token ⟨rest, nextId⟩ with same | ⟨error', after', refused, nested⟩
      · refine Or.inl ?_
        rw [extendRun_of_refused goesOn (same.symm.trans reply)]
      · rw [reply] at refused
        cases refused
        exact Or.inr ⟨error, after, rfl, nested⟩

theorem extendWhile {continues : Kind → Option γ} {extend extend' : α → γ → Token → Parser α}
    (step : ∀ value found token, Restricts (extend value found token) (extend' value found token))
    (value : α) :
    Restricts (Parser.extendWhile continues extend value)
      (Parser.extendWhile continues extend' value) :=
  fun cursor => extendRun step value cursor.rest cursor.nextId

theorem trans {strict middle loose : Parser α} (near : Restricts strict middle)
    (far : Restricts middle loose) : Restricts strict loose := by
  intro cursor
  rcases near cursor with same | failed
  · rw [same]
    exact far cursor
  · exact Or.inr failed

theorem accepted {strict loose : Parser α} {cursor after : Cursor} {value : α}
    (restricts : Restricts strict loose) (accepted : strict.run cursor = .accepted value after) :
    loose.run cursor = .accepted value after := by
  rcases restricts cursor with same | ⟨error, after', refused, nested⟩
  · rw [← same, accepted]
  · rw [accepted] at refused
    cases refused

end Restricts

section Forms

variable {strict loose : Parser Expr}

theorem item_restricts {single single' : Parser α} (inner : Restricts single single')
    (close : Symbol) (items : List α) :
    Restricts (item close single items) (item close single' items) := by
  apply Restricts.behind
  intro closes
  split
  · exact .refl _
  · exact inner.before

theorem listUntil_restricts {single single' : Parser α} (inner : Restricts single single')
    (close : Symbol) : Restricts (listUntil close single) (listUntil close single') := by
  apply (item_restricts inner close []).bind
  intro first
  apply Restricts.before
  exact .extendWhile (fun items _ _ => item_restricts inner close items) first

theorem arguments_restricts (inner : Restricts strict loose) :
    Restricts (arguments strict) (arguments loose) :=
  .behind fun _ => listUntil_restricts inner _

theorem initializer_restricts (inner : Restricts strict loose) (name : Name) :
    Restricts (initializer strict name) (initializer loose name) := by
  apply Restricts.behind
  intro hasValue
  split
  · exact inner
  · exact .refl _

theorem field_restricts (inner : Restricts strict loose) :
    Restricts (field strict) (field loose) :=
  .behind fun name => (initializer_restricts inner name).before

theorem fields_restricts (inner : Restricts strict loose) :
    Restricts (fields strict) (fields loose) :=
  .behind fun _ => listUntil_restricts (field_restricts inner) _

theorem named_restricts (inner : Restricts strict loose) :
    Restricts (named strict) (named loose) := by
  apply Restricts.behind
  intro name
  apply Restricts.behind
  intro isCall
  split
  · exact (arguments_restricts inner).before
  · apply Restricts.behind
    intro isStruct
    split
    · exact (fields_restricts inner).before
    · exact .refl _

theorem initial_restricts (inner : Restricts strict loose) (start : Span) :
    Restricts (initial start strict) (initial start loose) :=
  .behind fun _ => (arguments_restricts inner).before

theorem primary_restricts (inner : Restricts strict loose) :
    Restricts (primary strict) (primary loose) := by
  apply Restricts.behind
  intro token
  split
  · exact .refl _
  · exact .refl _
  · exact .refl _
  · exact .refl _
  · exact .behind fun _ => initial_restricts inner _
  · exact named_restricts inner
  · exact .behind fun _ => inner.before
  · exact .refl _

theorem member_restricts (inner : Restricts strict loose) (receiver : Expr) :
    Restricts (member strict receiver) (member loose receiver) := by
  apply Restricts.behind
  intro name
  apply Restricts.behind
  intro isCall
  split
  · exact (arguments_restricts inner).before
  · exact .refl _

theorem suffix_restricts (inner : Restricts strict loose) (operand : Expr) (found : Suffix)
    (token : Token) : Restricts (suffix strict operand found token)
      (suffix loose operand found token) := by
  cases found with
  | notNull => exact .refl _
  | member => exact member_restricts inner operand

theorem suffixed_restricts (inner : Restricts strict loose) :
    Restricts (suffixed strict) (suffixed loose) :=
  (primary_restricts inner).bind fun operand => .extendWhile (suffix_restricts inner) operand

theorem signed_restricts {operand operand' : Parser Expr} (inner : Restricts strict loose)
    (unsigned : Restricts operand operand') :
    Restricts (signed strict operand) (signed loose operand') := by
  apply Restricts.behind
  intro token
  cases token.kind.signs with
  | nil => exact unsigned
  | cons op outer => exact .behind fun _ => inner.before

theorem leftChain_restricts (inner : Restricts strict loose) (strength : Nat) :
    Restricts (leftChain strength strict) (leftChain strength loose) := by
  apply inner.bind
  intro first
  exact .extendWhile (fun _ _ _ => inner.before) first

theorem binary_restricts (inner : Restricts strict loose) (least : Nat) :
    Restricts (binary strict least) (binary loose least) := by
  unfold binary
  induction List.range' least (Precedence.sign - least) with
  | nil => exact inner
  | cons strength rest ih => exact leftChain_restricts ih strength

theorem conditional_restricts {operand operand' : Parser Expr} (inner : Restricts operand operand')
    (innerExpression : Restricts strict loose) :
    Restricts (conditional operand strict) (conditional operand' loose) := by
  apply (binary_restricts inner _).bind
  intro condition
  apply Restricts.behind
  intro asks
  split
  · apply (binary_restricts inner _).bind
    intro consequent
    exact .behind fun _ => innerExpression.before
  · exact .refl _

end Forms

/-! ## Levels -/

/-- One level less restricts the parsers of a level. -/
theorem withLeft_restricts_succ (left : Nat) :
    Restricts (Level.withLeft left).expression (Level.withLeft (left + 1)).expression ∧
      Restricts (Level.withLeft left).operand (Level.withLeft (left + 1)).operand := by
  induction left with
  | zero =>
      have expression := Restricts.refuse (Level.withLeft 1).expression
      exact ⟨expression, signed_restricts (.refuse _) (suffixed_restricts expression)⟩
  | succ left ih =>
      have expression := conditional_restricts ih.2 ih.1
      exact ⟨expression, signed_restricts ih.2 (suffixed_restricts expression)⟩

theorem withLeft_restricts {left more : Nat} (less : left ≤ more) :
    Restricts (Level.withLeft left).expression (Level.withLeft more).expression := by
  induction less with
  | refl => exact .refl _
  | step less ih => exact ih.trans (withLeft_restricts_succ _).1

theorem complete_restricts {left more : Nat} (less : left ≤ more) :
    Restricts (complete (expressionWithin left)) (complete (expressionWithin more)) :=
  (withLeft_restricts less).before

end ContractExpr.Parser
