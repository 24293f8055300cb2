import ContractExpr.Symbol
/-! # Operators and how tightly they bind

Every operator is written with one symbol. Binding strengths are natural numbers; the greater one
binds tighter, and all binary operators associate to the left.
-/
set_option autoImplicit false

namespace ContractExpr

namespace Precedence

def conditional : Nat := 1

def loosestBinary : Nat := 2

/-- Strength of an operator written before its operand; all binary operators are looser. -/
def sign : Nat := 12

/-- Strength of what is written behind its operand: field access, method call, null check. -/
def access : Nat := 13

def primary : Nat := 14

end Precedence

inductive UnaryOp where
  | plus
  | negate
  | not
  | notNull
  | bitNot
  deriving DecidableEq, Repr, Inhabited

namespace UnaryOp

def all : List UnaryOp := [.plus, .negate, .not, .notNull, .bitNot]

def symbol : UnaryOp → Symbol
  | .plus => .plus
  | .negate => .minus
  | .not => .bang
  | .notNull => .doubleBang
  | .bitNot => .tilde

def followsOperand : UnaryOp → Bool
  | .notNull => true
  | _ => false

def precedence (op : UnaryOp) : Nat :=
  if op.followsOperand then Precedence.access else Precedence.sign

end UnaryOp

inductive BinaryOp where
  | add | subtract | multiply | divide | modulo
  | notEqual | greater | less | greaterEqual | lessEqual | equal
  | and | or
  | shiftLeft | shiftRight | bitAnd | bitOr | bitXor
  deriving DecidableEq, Repr, Inhabited

namespace BinaryOp

def all : List BinaryOp :=
  [.add, .subtract, .multiply, .divide, .notEqual, .greater, .less, .greaterEqual, .lessEqual,
   .equal, .and, .or, .modulo, .shiftLeft, .shiftRight, .bitAnd, .bitOr, .bitXor]

def symbol : BinaryOp → Symbol
  | .add => .plus
  | .subtract => .minus
  | .multiply => .star
  | .divide => .slash
  | .modulo => .percent
  | .notEqual => .notEqual
  | .greater => .greater
  | .less => .less
  | .greaterEqual => .greaterEqual
  | .lessEqual => .lessEqual
  | .equal => .equal
  | .and => .doubleAmpersand
  | .or => .doublePipe
  | .shiftLeft => .shiftLeft
  | .shiftRight => .shiftRight
  | .bitAnd => .ampersand
  | .bitOr => .pipe
  | .bitXor => .caret

def precedence : BinaryOp → Nat
  | .or => Precedence.loosestBinary
  | .and => 3
  | .bitOr => 4
  | .bitXor => 5
  | .bitAnd => 6
  | .equal | .notEqual => 7
  | .less | .lessEqual | .greater | .greaterEqual => 8
  | .shiftLeft | .shiftRight => 9
  | .add | .subtract => 10
  | .multiply | .divide | .modulo => 11

end BinaryOp

namespace Symbol

def binaryOp? (symbol : Symbol) : Option BinaryOp :=
  BinaryOp.all.find? fun op => op.symbol == symbol

/-- The operators that a symbol writes before an operand, innermost first. Before an operand a
double exclamation mark is two negations. -/
def signs : Symbol → List UnaryOp
  | .plus => [.plus]
  | .minus => [.negate]
  | .bang => [.not]
  | .doubleBang => [.not, .not]
  | .tilde => [.bitNot]
  | _ => []

end Symbol
end ContractExpr
