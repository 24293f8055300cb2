import ContractExpr.Expr
import ContractExpr.Text.Quoted
/-! # Writing expressions

An expression is laid out as a list of pieces, each a word, a symbol, a literal or a blank, and
written by joining their texts. An operand stands in parentheses exactly when it binds looser than
its place asks for.
-/
set_option autoImplicit false

namespace ContractExpr

open Text

inductive Piece where
  | word (text : String)
  | symbol (mark : Symbol)
  | number (value : Number)
  | string (content : String)
  | blank
  deriving DecidableEq, Repr, Inhabited

namespace Piece

def chars : Piece → List Char
  | .word text => text.toList
  | .symbol mark => mark.chars
  | .number value => value.chars
  | .string content => Quoted.write content.toList
  | .blank => [' ']

def write (pieces : List Piece) : List Char := pieces.flatMap chars

/-- Puts parentheses around an operand whose strength is below the least one its place allows. -/
def operand (least strength : Nat) (pieces : List Piece) : List Piece :=
  if strength < least then .symbol .leftParen :: (pieces ++ [.symbol .rightParen]) else pieces

def spaced (mark : Symbol) : List Piece := [.blank, .symbol mark, .blank]

def separator : List Piece := [.symbol .comma, .blank]

end Piece

namespace Expr

open Piece

mutual

def layout : Expr → List Piece
  | .number value _ => [.number value]
  | .boolean value _ => [.word (if value then "true" else "false")]
  | .null _ => [.word "null"]
  | .string content _ => [.string content]
  | .identifier name _ => [.word name]
  | .unary op inner _ =>
    if op.followsOperand then
      operand Precedence.access inner.precedence inner.layout ++ [.symbol op.symbol]
    else .symbol op.symbol :: operand Precedence.sign inner.precedence inner.layout
  | .binary op left right _ =>
    operand op.precedence left.precedence left.layout ++ spaced op.symbol ++
      operand (op.precedence + 1) right.precedence right.layout
  | .conditional condition consequent alternative _ =>
    operand Precedence.loosestBinary condition.precedence condition.layout ++ spaced .question ++
      operand Precedence.loosestBinary consequent.precedence consequent.layout ++ spaced .colon ++
      operand Precedence.conditional alternative.precedence alternative.layout
  | .initOf contract arguments _ =>
    .word "initOf" :: .blank :: .word contract.text :: layoutOfArguments arguments
  | .methodCall receiver method arguments _ =>
    operand Precedence.access receiver.precedence receiver.layout ++
      .symbol .dot :: .word method.text :: layoutOfArguments arguments
  | .fieldAccess aggregate field _ =>
    operand Precedence.access aggregate.precedence aggregate.layout ++
      [.symbol .dot, .word field.text]
  | .call function arguments _ => .word function.text :: layoutOfArguments arguments
  | .structInstance type fields _ => .word type.text :: .blank :: layoutOfFields fields

def layoutOfArguments : List Expr → List Piece
  | [] => [.symbol .leftParen, .symbol .rightParen]
  | first :: rest => .symbol .leftParen :: (first.layout ++ layoutOfFurther rest)

def layoutOfFurther : List Expr → List Piece
  | [] => [.symbol .rightParen]
  | next :: rest => separator ++ next.layout ++ layoutOfFurther rest

/-- Fields in braces; braces around fields have blanks inside, empty braces have none. -/
def layoutOfFields : List (Field Expr) → List Piece
  | [] => [.symbol .leftBrace, .symbol .rightBrace]
  | ⟨name, initializer, _⟩ :: rest =>
    .symbol .leftBrace :: .blank :: .word name.text :: .symbol .colon :: .blank ::
      (initializer.layout ++ layoutOfFurtherFields rest)

def layoutOfFurtherFields : List (Field Expr) → List Piece
  | [] => [.blank, .symbol .rightBrace]
  | ⟨name, initializer, _⟩ :: rest =>
    separator ++ .word name.text :: .symbol .colon :: .blank ::
      (initializer.layout ++ layoutOfFurtherFields rest)

end

def render (expr : Expr) : String := String.ofList (Piece.write expr.layout)

end Expr
end ContractExpr
