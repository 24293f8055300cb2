import ContractExpr.Parser.Descent

/-! # Relations that all functions of a session keep

A relation that every step bears to itself, and that holds of two sequences where it holds of their
parts, holds of the functions that read a form wherever it holds of the functions they call.
-/

set_option autoImplicit false

namespace ContractExpr.Descent

def roundLimit : Descent Nat := return (← get).tokens.length

theorem loop_eq {α : Type} (round : α → Descent (ForInStep α)) (value : α) :
    loop round value = roundLimit >>= fun count => rounds round count value := rfl

/-- A relation between functions that each step bears to itself and that sequences keep. -/
structure Congruence (related : ∀ {α : Type}, Descent α → Descent α → Prop) : Prop where
  pure {α : Type} (value : α) : related (pure value) (pure value)
  fail {α : Type} (stop : Stop) : related (throw stop : Descent α) (throw stop)
  peek : related peek peek
  advance : related advance advance
  previousSpan : related previousSpan previousSpan
  fresh (span : Span) : related (fresh span) (fresh span)
  roundLimit : related roundLimit roundLimit
  bind {α β : Type} {first other : Descent α} {next next' : α → Descent β}
    (begun : related first other) (behind : ∀ value, related (next value) (next' value)) :
    related (first >>= next) (other >>= next')

namespace Congruence

theorem eq : Congruence fun function other => function = other where
  pure _ := rfl
  fail _ := rfl
  peek := rfl
  advance := rfl
  previousSpan := rfl
  fresh _ := rfl
  roundLimit := rfl
  bind begun behind := by rw [begun, funext behind]

variable {α β : Type} {related : ∀ {α : Type}, Descent α → Descent α → Prop} {mark : Symbol}

section Steps

variable (keeps : Congruence related)

include keeps

theorem refuse (cause : ParseError.Cause) :
    related (Descent.refuse cause : Descent α) (Descent.refuse cause) :=
  keeps.bind keeps.peek fun _ => keeps.fail _

theorem unexpected (expected : Expectation) :
    related (Descent.unexpected expected : Descent α) (Descent.unexpected expected) := by
  refine keeps.bind keeps.peek fun token => ?_
  cases token.kind <;> exact keeps.refuse _

theorem isAt : related (Descent.isAt mark) (Descent.isAt mark) :=
  keeps.bind keeps.peek fun _ => keeps.pure _

theorem accept : related (Descent.accept mark) (Descent.accept mark) := by
  refine keeps.bind keeps.isAt fun here => ?_
  cases here with
  | true => exact keeps.bind keeps.advance fun _ => keeps.pure true
  | false => exact keeps.pure false

theorem expect : related (Descent.expect mark) (Descent.expect mark) := by
  refine keeps.bind keeps.accept fun here => ?_
  cases here with
  | true => exact keeps.pure ()
  | false => exact keeps.unexpected _

theorem node (span : Span) (make : Info → β) :
    related (do return make (← Descent.fresh span)) (do return make (← Descent.fresh span)) :=
  keeps.bind (keeps.fresh span) fun _ => keeps.pure _

theorem rounds {round round' : α → Descent (ForInStep α)}
    (each : ∀ value, related (round value) (round' value)) (count : Nat) (value : α) :
    related (Descent.rounds round count value) (Descent.rounds round' count value) := by
  induction count generalizing value with
  | zero => exact keeps.fail _
  | succ count ih =>
      refine keeps.bind (each value) fun outcome => ?_
      cases outcome with
      | done result => exact keeps.pure result
      | yield next => exact ih next

theorem loop {round round' : α → Descent (ForInStep α)}
    (each : ∀ value, related (round value) (round' value)) (value : α) :
    related (Descent.loop round value) (Descent.loop round' value) := by
  rw [loop_eq, loop_eq]
  exact keeps.bind keeps.roundLimit fun count => keeps.rounds each count value

/-! ## The forms of an expression -/

theorem name : related Descent.name Descent.name := by
  refine keeps.bind keeps.peek fun token => ?_
  cases token.kind with
  | name text => exact keeps.bind keeps.advance fun _ => keeps.node _ _
  | reserved word => exact keeps.refuse _
  | _ => exact keeps.unexpected _

theorem list {opening close : Symbol} {item item' : Descent α} (each : related item item') :
    related (Descent.list opening close item) (Descent.list opening close item') := by
  refine keeps.bind keeps.expect fun _ => keeps.bind (keeps.loop (fun items => ?_) []) fun _ =>
    keeps.bind keeps.expect fun _ => keeps.pure _
  refine keeps.bind keeps.isAt fun closes => ?_
  cases closes with
  | true => exact keeps.pure _
  | false =>
      refine keeps.bind each fun found => keeps.bind keeps.accept fun goesOn => ?_
      cases goesOn <;> exact keeps.pure _

theorem close {function other : Descent α} (inner : related function other) (start : Span)
    (node : α → Info → β) :
    related
      (do
        let value ← function
        return node value (← Descent.fresh (start.merge (← Descent.previousSpan))))
      (do
        let value ← other
        return node value (← Descent.fresh (start.merge (← Descent.previousSpan)))) :=
  keeps.bind inner fun _ => keeps.bind keeps.previousSpan fun _ => keeps.node _ _

theorem applySigns (start : Span) (signs : List UnaryOp) (operand : Expr) :
    related (Descent.applySigns start signs operand) (Descent.applySigns start signs operand) := by
  induction signs generalizing operand with
  | nil => exact keeps.pure operand
  | cons op outer ih => exact keeps.bind (keeps.fresh _) fun info => ih (.unary op operand info)

end Steps

section Functions

variable (keeps : Congruence related) {calls other : Calls}

include keeps

theorem field (expression : related calls.expression other.expression) :
    related (Descent.field calls) (Descent.field other) := by
  refine keeps.bind keeps.name fun name => keeps.bind ?_ fun value => keeps.node _ _
  refine keeps.bind keeps.accept fun given => ?_
  cases given with
  | true => exact expression
  | false => exact keeps.node _ _

theorem named (arguments : related calls.arguments other.arguments)
    (fields : related calls.fields other.fields) (start : Span) :
    related (Descent.named calls start) (Descent.named other start) := by
  refine keeps.bind keeps.name fun name => keeps.bind keeps.isAt fun isCall => ?_
  cases isCall with
  | true => exact keeps.close arguments start _
  | false =>
      refine keeps.bind keeps.isAt fun isStruct => ?_
      cases isStruct with
      | true => exact keeps.close fields start _
      | false => exact keeps.pure _

theorem primary (expression : related calls.expression other.expression)
    (arguments : related calls.arguments other.arguments)
    (fields : related calls.fields other.fields) :
    related (Descent.primary calls) (Descent.primary other) := by
  refine keeps.bind keeps.peek fun token => ?_
  cases token.kind with
  | boolean | null | string => exact keeps.bind keeps.advance fun _ => keeps.node _ _
  | number base digits =>
      refine keeps.bind keeps.advance fun _ => ?_
      cases Number.ofDigits? base digits.toList with
      | some value => exact keeps.node _ _
      | none => exact keeps.fail _
  | initOf =>
      exact keeps.bind keeps.advance fun _ => keeps.bind keeps.name fun _ =>
        keeps.close arguments _ _
  | name text => exact keeps.named arguments fields _
  | symbol mark =>
      cases mark with
      | leftParen =>
          exact keeps.bind keeps.advance fun _ => keeps.bind expression fun _ =>
            keeps.bind keeps.expect fun _ => keeps.pure _
      | _ => exact keeps.unexpected _
  | _ => exact keeps.unexpected _

theorem member (arguments : related calls.arguments other.arguments) (operand : Expr) :
    related (Descent.member calls operand) (Descent.member other operand) := by
  refine keeps.bind keeps.name fun name => keeps.bind keeps.isAt fun isCall => ?_
  cases isCall with
  | true => exact keeps.close arguments _ _
  | false => exact keeps.node _ _

theorem suffixed (primary : related calls.primary other.primary)
    (arguments : related calls.arguments other.arguments) :
    related (Descent.suffixed calls) (Descent.suffixed other) := by
  refine keeps.bind primary fun operand => keeps.loop (fun operand => ?_) operand
  refine keeps.bind keeps.accept fun checked => ?_
  cases checked with
  | true => exact keeps.bind keeps.previousSpan fun _ => keeps.node _ _
  | false =>
      refine keeps.bind keeps.accept fun dotted => ?_
      cases dotted with
      | true => exact keeps.bind (keeps.member arguments operand) fun _ => keeps.pure _
      | false => exact keeps.pure _

theorem signed (suffixed : related calls.suffixed other.suffixed)
    (deeper : related (nested calls.signed) (nested other.signed)) :
    related (Descent.signed calls) (Descent.signed other) := by
  refine keeps.bind keeps.peek fun token => ?_
  cases token.kind.signs with
  | nil => exact suffixed
  | cons op outer =>
      exact keeps.bind keeps.advance fun _ => keeps.bind deeper fun operand =>
        keeps.applySigns _ _ operand

theorem binary {least : Nat} (signed : related calls.signed other.signed)
    (tighter : ∀ op : BinaryOp, least ≤ op.precedence →
      related (calls.binary (op.precedence + 1)) (other.binary (op.precedence + 1))) :
    related (Descent.binary calls least) (Descent.binary other least) := by
  refine keeps.bind signed fun first => keeps.loop (fun left => ?_) first
  refine keeps.bind keeps.peek fun token => ?_
  cases token.kind.binaryOp? with
  | none => exact keeps.pure _
  | some op =>
      by_cases weak : op.precedence < least
      · simp only [if_pos weak]
        exact keeps.pure _
      · simp only [if_neg weak]
        exact keeps.bind keeps.advance fun _ =>
          keeps.bind (tighter op (Nat.le_of_not_lt weak)) fun _ => keeps.node _ _

theorem conditional
    (chain : related (calls.binary Precedence.loosestBinary)
      (other.binary Precedence.loosestBinary))
    (expression : related calls.expression other.expression) :
    related (Descent.conditional calls) (Descent.conditional other) := by
  refine keeps.bind chain fun condition => keeps.bind keeps.accept fun asks => ?_
  cases asks with
  | true =>
      exact keeps.bind chain fun _ => keeps.bind keeps.expect fun _ =>
        keeps.bind expression fun _ => keeps.node _ _
  | false => exact keeps.pure condition

theorem complete (expression : related calls.expression other.expression) :
    related (Descent.complete calls) (Descent.complete other) := by
  refine keeps.bind expression fun tree => keeps.bind keeps.peek fun token => ?_
  by_cases isEnd : token.kind.isEnd = true
  · simp only [if_pos isEnd]
    exact keeps.pure tree
  · simp only [if_neg isEnd]
    exact keeps.unexpected _

end Functions

end Congruence
end ContractExpr.Descent
