import ContractExpr.Proofs.Expr.Induction
import ContractExpr.Proofs.Grammar

/-! # The tokens and levels of a written tree

Which tokens the text of a tree has, and how many levels are open at once when they are read. Both
follow the layout: an operand that is too weak for its place stands in parentheses, and two
negations next to each other are one token.
-/

set_option autoImplicit false

namespace ContractExpr

open Token Grammar

/-- The tokens of an operand, in parentheses when its strength is below the least of its place. -/
def grouped (least strength : Nat) (kinds : List Kind) : List Kind :=
  if strength < least then .symbol .leftParen :: (kinds ++ [.symbol .rightParen]) else kinds

def groupedLevels (least strength inside : Nat) : Nat :=
  if strength < least then inside + 1 else inside

namespace Expr

mutual

/-- The kinds of the tokens of the text of a tree. -/
def kinds : Expr → List Kind
  | .number value _ => [.number value.base (String.ofList value.digits)]
  | .boolean value _ => [.boolean value]
  | .null _ => [.null]
  | .string content _ => [.string content]
  | .identifier name _ => [.name name]
  | .unary .not (.unary .not inner _) _ =>
    .symbol .doubleBang :: grouped Precedence.sign inner.precedence inner.kinds
  | .unary op inner _ =>
    if op.followsOperand then
      grouped Precedence.access inner.precedence inner.kinds ++ [.symbol op.symbol]
    else .symbol op.symbol :: grouped Precedence.sign inner.precedence inner.kinds
  | .binary op left right _ =>
    grouped op.precedence left.precedence left.kinds ++
      .symbol op.symbol :: grouped (op.precedence + 1) right.precedence right.kinds
  | .conditional condition consequent alternative _ =>
    grouped Precedence.loosestBinary condition.precedence condition.kinds ++
      .symbol .question ::
        (grouped Precedence.loosestBinary consequent.precedence consequent.kinds ++
          .symbol .colon :: alternative.kinds)
  | .initOf contract arguments _ =>
    .initOf :: .name contract.text :: .symbol .leftParen ::
      (joined (kindsOfList arguments) ++ [.symbol .rightParen])
  | .methodCall receiver method arguments _ =>
    grouped Precedence.access receiver.precedence receiver.kinds ++
      .symbol .dot :: .name method.text :: .symbol .leftParen ::
        (joined (kindsOfList arguments) ++ [.symbol .rightParen])
  | .fieldAccess aggregate field _ =>
    grouped Precedence.access aggregate.precedence aggregate.kinds ++
      [.symbol .dot, .name field.text]
  | .call function arguments _ =>
    .name function.text :: .symbol .leftParen ::
      (joined (kindsOfList arguments) ++ [.symbol .rightParen])
  | .structInstance type fields _ =>
    .name type.text :: .symbol .leftBrace ::
      (joined (kindsOfFields fields) ++ [.symbol .rightBrace])

def kindsOfList : List Expr → List (List Kind)
  | [] => []
  | first :: rest => first.kinds :: kindsOfList rest

def kindsOfFields : List (Field Expr) → List (List Kind)
  | [] => []
  | ⟨name, initializer, _⟩ :: rest =>
    (.name name.text :: .symbol .colon :: initializer.kinds) :: kindsOfFields rest

end

mutual

/-- The most levels open at once within the level of the tree itself. A level is opened by
parentheses, an argument, the value of a field, the last branch of a conditional and a token before
an operand. -/
def inside : Expr → Nat
  | .number .. | .boolean .. | .null .. | .string .. | .identifier .. => 0
  | .unary .not (.unary .not inner _) _ =>
    groupedLevels Precedence.sign inner.precedence inner.inside + 1
  | .unary op inner _ =>
    if op.followsOperand then groupedLevels Precedence.access inner.precedence inner.inside
    else groupedLevels Precedence.sign inner.precedence inner.inside + 1
  | .binary op left right _ =>
    max (groupedLevels op.precedence left.precedence left.inside)
      (groupedLevels (op.precedence + 1) right.precedence right.inside)
  | .conditional condition consequent alternative _ =>
    max (max (groupedLevels Precedence.loosestBinary condition.precedence condition.inside)
      (groupedLevels Precedence.loosestBinary consequent.precedence consequent.inside))
      (alternative.inside + 1)
  | .initOf _ arguments _ => levelsOfList arguments
  | .methodCall receiver _ arguments _ =>
    max (groupedLevels Precedence.access receiver.precedence receiver.inside)
      (levelsOfList arguments)
  | .fieldAccess aggregate _ _ =>
    groupedLevels Precedence.access aggregate.precedence aggregate.inside
  | .call _ arguments _ => levelsOfList arguments
  | .structInstance _ fields _ => levelsOfFields fields

def levelsOfList : List Expr → Nat
  | [] => 0
  | first :: rest => max (first.inside + 1) (levelsOfList rest)

def levelsOfFields : List (Field Expr) → Nat
  | [] => 0
  | ⟨_, initializer, _⟩ :: rest => max (initializer.inside + 1) (levelsOfFields rest)

end

/-- The most levels open at once when the text of a tree is read, that of the whole included. -/
def levels (expr : Expr) : Nat := expr.inside + 1

/-! ## Strengths -/

theorem conditional_le_precedence (expr : Expr) : Precedence.conditional ≤ expr.precedence := by
  have loosest : Precedence.conditional ≤ Precedence.loosestBinary := by decide
  have sign : Precedence.conditional ≤ Precedence.sign := by decide
  have access : Precedence.conditional ≤ Precedence.access := by decide
  have primary : Precedence.conditional ≤ Precedence.primary := by decide
  cases expr with
  | conditional => exact Nat.le_refl _
  | binary op => exact Nat.le_trans loosest op.loosestBinary_le_precedence
  | unary op => exact Nat.le_trans sign op.sign_le_precedence
  | methodCall | fieldAccess => exact access
  | _ => exact primary

theorem precedence_le_primary (expr : Expr) : expr.precedence ≤ Precedence.primary := by
  have conditional : Precedence.conditional ≤ Precedence.primary := by decide
  have sign : Precedence.sign ≤ Precedence.primary := by decide
  have access : Precedence.access ≤ Precedence.primary := by decide
  cases expr with
  | conditional => exact conditional
  | binary op => exact Nat.le_trans (Nat.le_of_lt op.precedence_lt_sign) sign
  | unary op => exact Nat.le_trans op.precedence_le_access access
  | methodCall | fieldAccess => exact access
  | _ => exact Nat.le_refl _

theorem grouped_conditional (expr : Expr) (kinds : List Kind) :
    grouped Precedence.conditional expr.precedence kinds = kinds :=
  if_neg (Nat.not_lt_of_le expr.conditional_le_precedence)

/-! ## Lists -/

theorem kindsOfList_eq (trees : List Expr) : kindsOfList trees = trees.map kinds := by
  induction trees with
  | nil => rfl
  | cons first rest ih => rw [kindsOfList, ih, List.map_cons]

theorem kindsOfFields_eq (entries : List (Field Expr)) :
    kindsOfFields entries =
      entries.map fun entry =>
        .name entry.name.text :: .symbol .colon :: entry.initializer.kinds := by
  induction entries with
  | nil => rfl
  | cons first rest ih =>
      rw [kindsOfFields, ih]
      rfl

theorem levelsOfList_le {trees : List Expr} {bound : Nat} :
    levelsOfList trees ≤ bound ↔ ∀ tree ∈ trees, tree.levels ≤ bound := by
  induction trees with
  | nil => simp [levelsOfList]
  | cons first rest ih =>
      rw [levelsOfList, Nat.max_le, ih, List.forall_mem_cons]
      rfl

theorem levelsOfFields_le {entries : List (Field Expr)} {bound : Nat} :
    levelsOfFields entries ≤ bound ↔ ∀ entry ∈ entries, entry.initializer.levels ≤ bound := by
  induction entries with
  | nil => simp [levelsOfFields]
  | cons first rest ih =>
      rw [levelsOfFields, Nat.max_le, ih, List.forall_mem_cons]
      rfl

/-! ## Operators before and behind an operand -/

section Unary

variable {op : UnaryOp} {operand : Expr} {info : Info}

theorem kinds_unary (single : op = .not → operand.isNot = false) :
    (unary op operand info).kinds =
      if op.followsOperand then
        grouped Precedence.access operand.precedence operand.kinds ++ [.symbol op.symbol]
      else .symbol op.symbol :: grouped Precedence.sign operand.precedence operand.kinds := by
  rw [kinds.eq_def]
  split
  all_goals simp_all [isNot]

theorem inside_unary (single : op = .not → operand.isNot = false) :
    (unary op operand info).inside =
      if op.followsOperand then groupedLevels Precedence.access operand.precedence operand.inside
      else groupedLevels Precedence.sign operand.precedence operand.inside + 1 := by
  rw [inside.eq_def]
  split
  all_goals simp_all [isNot]

end Unary

end Expr
end ContractExpr
