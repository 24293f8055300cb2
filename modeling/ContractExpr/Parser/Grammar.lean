import ContractExpr.Parser
import ContractExpr.Token.Reader
/-! # The grammar of expressions

Each parser of this module reads one form of expression from parsers for the forms inside it. They
are tied together in `Level`: a level gives the parsers that may still open a number of nested
levels, and is made from the level with one less. A level is opened by a whole expression (in
parentheses, an argument, a field value, the last branch of a conditional) and by an operator
written before its operand.
-/
set_option autoImplicit false

namespace ContractExpr.Parser

/-! ## Names and lists -/

def name : Parser Name := do
  let token ← current
  match token.kind with
  | .name text =>
    advance
    return ⟨text, ← fresh token.span⟩
  | .reserved word => refuse (.reservedName word)
  | _ => unexpected .identifier

def item {α : Type} (close : Symbol) (single : Parser α) (items : List α) : Parser (List α) := do
  if ← isAt close then return items else return items ++ [← single]

/-- Reads items with commas between them up to the closing symbol, whose span it gives too. A comma
may stand behind the last item. -/
def listUntil {α : Type} (close : Symbol) (single : Parser α) : Parser (List α × Span) := do
  let first ← item close single []
  let items ← extendWhile (fun kind => if kind = .symbol .comma then some () else none)
    (fun items _ _ => item close single items) first
  return (items, ← expect close)

def arguments (expression : Parser Expr) : Parser (List Expr × Span) := do
  let _ ← expect .leftParen
  listUntil .rightParen expression

/-- Reads the value of a field; a name without one stands for itself. -/
def initializer (expression : Parser Expr) (name : Name) : Parser Expr := do
  if ← accept .colon then expression
  else return .identifier name.text (← fresh name.info.span)

def field (expression : Parser Expr) : Parser (Field Expr) := do
  let name ← name
  let initializer ← initializer expression name
  return ⟨name, initializer, ← fresh (name.info.span.merge initializer.span)⟩

def fields (expression : Parser Expr) : Parser (List (Field Expr) × Span) := do
  let _ ← expect .leftBrace
  listUntil .rightBrace (field expression)

/-! ## Operands -/

def named (expression : Parser Expr) : Parser Expr := do
  let name ← name
  if ← isAt .leftParen then
    let (arguments, close) ← arguments expression
    return .call name arguments (← fresh (name.info.span.merge close))
  else if ← isAt .leftBrace then
    let (fields, close) ← fields expression
    return .structInstance name fields (← fresh (name.info.span.merge close))
  else return .identifier name.text name.info

def initial (start : Span) (expression : Parser Expr) : Parser Expr := do
  let contract ← name
  let (arguments, close) ← arguments expression
  return .initOf contract arguments (← fresh (start.merge close))

/-- Reads a literal, what a name begins, or an expression in parentheses, which leave no node. -/
def primary (expression : Parser Expr) : Parser Expr := do
  let token ← current
  match token.kind with
  | .boolean value =>
    advance
    return .boolean value (← fresh token.span)
  | .null =>
    advance
    return .null (← fresh token.span)
  | .number base digits =>
    advance
    match Number.ofDigits? base digits.toList with
    | some value => return .number value (← fresh token.span)
    | none => fail ⟨.invalidNumber base digits, token.span⟩
  | .string content =>
    advance
    return .string content (← fresh token.span)
  | .initOf =>
    advance
    initial token.span expression
  | .name _ => named expression
  | .symbol .leftParen =>
    advance
    let inner ← expression
    let _ ← expect .rightParen
    return inner
  | _ => unexpected .expression

inductive Suffix where
  | notNull
  | member
  deriving DecidableEq, Repr

def suffix? : Token.Kind → Option Suffix
  | .symbol .doubleBang => some .notNull
  | .symbol .dot => some .member
  | _ => none

def member (expression : Parser Expr) (receiver : Expr) : Parser Expr := do
  let name ← name
  if ← isAt .leftParen then
    let (arguments, close) ← arguments expression
    return .methodCall receiver name arguments (← fresh (receiver.span.merge close))
  else return .fieldAccess receiver name (← fresh (receiver.span.merge name.info.span))

def suffix (expression : Parser Expr) (operand : Expr) : Suffix → Token → Parser Expr
  | .notNull, token => return .unary .notNull operand (← fresh (operand.span.merge token.span))
  | .member, _ => member expression operand

def suffixed (expression : Parser Expr) : Parser Expr := do
  let operand ← primary expression
  extendWhile suffix? (suffix expression) operand

def applySigns (start : Span) : List UnaryOp → Expr → Parser Expr
  | [], operand => return operand
  | op :: outer, operand => do
    let info ← fresh (start.merge operand.span)
    applySigns start outer (.unary op operand info)

/-- Reads an operand with the operators before it. What follows such an operator is one level
further in. -/
def signed (inner operand : Parser Expr) : Parser Expr := do
  let token ← current
  match token.kind.signs with
  | [] => operand
  | signs =>
    advance
    applySigns token.span signs (← inner)

/-! ## Operators between operands -/

def operatorOf? (strength : Nat) (kind : Token.Kind) : Option BinaryOp :=
  kind.binaryOp?.filter fun op => op.precedence == strength

/-- Reads operands with operators of one strength between them and groups them to the left. -/
def leftChain (strength : Nat) (operand : Parser Expr) : Parser Expr := do
  let first ← operand
  extendWhile (operatorOf? strength)
    (fun left op _ => do
      let right ← operand
      return .binary op left right (← fresh (left.span.merge right.span)))
    first

/-- Reads an expression whose binary operators have at least the given strength: the chains of each
strength have the chains of the next one as their operands. -/
def binary (operand : Parser Expr) (least : Nat) : Parser Expr :=
  (List.range' least (Precedence.sign - least)).foldr leftChain operand

/-- Reads a conditional, or its condition where no question mark follows. Only the last branch may
be a conditional without parentheses. -/
def conditional (operand expression : Parser Expr) : Parser Expr := do
  let condition ← binary operand Precedence.loosestBinary
  if ← accept .question then
    let consequent ← binary operand Precedence.loosestBinary
    let _ ← expect .colon
    let alternative ← expression
    let info ← fresh (condition.span.merge alternative.span)
    return .conditional condition consequent alternative info
  else return condition

/-! ## Levels -/

/-- The parsers of one level of nesting. -/
structure Level where
  /-- Reads a whole expression, which opens a level. -/
  expression : Parser Expr
  /-- Reads an operand of a binary operator within a level that is open. -/
  operand : Parser Expr

namespace Level

/-- The level whose whole expressions are given, with what may follow a sign in it. -/
def ofExpression (expression inner : Parser Expr) : Level :=
  ⟨expression, signed inner (suffixed expression)⟩

/-- The level that can open the given number of further ones. -/
def withLeft : Nat → Level
  | 0 => ofExpression (refuse .nestedTooDeeply) (refuse .nestedTooDeeply)
  | left + 1 =>
    let inner := withLeft left
    ofExpression (conditional inner.operand inner.expression) inner.operand

end Level

def nestingLimit : Nat := 100

def expressionWithin (limit : Nat) : Parser Expr := (Level.withLeft limit).expression

def complete (expression : Parser Expr) : Parser Expr := do
  let expr ← expression
  let token ← current
  if token.kind.isEnd then return expr else unexpected .endOfInput

def input : Parser Expr := complete (expressionWithin nestingLimit)

end Parser

namespace Cursor

/-- The cursor before the first token of a source, comments left out. The identity zero is for built
nodes, so identities begin with one. -/
def ofSource (source : String) : Cursor :=
  ⟨(tokenize source).filter fun token => !token.kind.isComment, 1⟩

end Cursor

namespace Expr

def parse (source : String) : Except ParseError Expr :=
  (Parser.input.run (Cursor.ofSource source)).toExcept

end Expr
end ContractExpr
