import ContractExpr.Parser.Session
/-! # Recursive descent

The functions that read the forms of an expression in a session. They call each other through
`Calls`, a record of all of them, which is made from the record that allows one active call less.
Binary operators are read by climbing: what stands behind an operator binds tighter than it.
-/
set_option autoImplicit false

namespace ContractExpr.Descent

/-- The functions that call each other. -/
structure Calls where
  expression : Descent Expr
  conditional : Descent Expr
  /-- Reads operands with binary operators of at least the given strength between them. -/
  binary : Nat → Descent Expr
  signed : Descent Expr
  suffixed : Descent Expr
  primary : Descent Expr
  arguments : Descent (List Expr)
  fields : Descent (List (Field Expr))

/-! ## Names and lists -/

def name : Descent Name := do
  let token ← peek
  match token.kind with
  | .name text =>
    advance
    return ⟨text, ← fresh token.span⟩
  | .reserved word => refuse (.reservedName word)
  | _ => unexpected .identifier

def listRound {α : Type} (close : Symbol) (item : Descent α) (items : List α) :
    Descent (ForInStep (List α)) := do
  if ← isAt close then return .done items
  else
    let items := items ++ [← item]
    if ← accept .comma then return .yield items else return .done items

def list {α : Type} (opening close : Symbol) (item : Descent α) : Descent (List α) := do
  expect opening
  let items ← loop (listRound close item) []
  expect close
  return items

section Functions

variable (calls : Calls)

def arguments : Descent (List Expr) := list .leftParen .rightParen calls.expression

/-- Reads the value of a field; a name without one stands for itself. -/
def initializer (name : Name) : Descent Expr := do
  if ← accept .colon then calls.expression
  else return .identifier name.text (← fresh name.info.span)

def field : Descent (Field Expr) := do
  let name ← name
  let initializer ← initializer calls name
  return ⟨name, initializer, ← fresh (name.info.span.merge initializer.span)⟩

def fields : Descent (List (Field Expr)) := list .leftBrace .rightBrace (field calls)

/-! ## Operands -/

def named (start : Span) : Descent Expr := do
  let name ← name
  if ← isAt .leftParen then
    let arguments ← calls.arguments
    return .call name arguments (← fresh (start.merge (← previousSpan)))
  else if ← isAt .leftBrace then
    let fields ← calls.fields
    return .structInstance name fields (← fresh (start.merge (← previousSpan)))
  else return .identifier name.text name.info

def primary : Descent Expr := do
  let token ← peek
  match token.kind with
  | .boolean value =>
    advance
    return .boolean value (← fresh token.span)
  | .null =>
    advance
    return .null (← fresh token.span)
  | .number base digits =>
    advance
    match Number.ofDigits? base digits.toList with
    | some value => return .number value (← fresh token.span)
    | none => fail ⟨.invalidNumber base digits, token.span⟩
  | .string content =>
    advance
    return .string content (← fresh token.span)
  | .initOf =>
    advance
    let contract ← name
    let arguments ← calls.arguments
    return .initOf contract arguments (← fresh (token.span.merge (← previousSpan)))
  | .name _ => named calls token.span
  | .symbol .leftParen =>
    advance
    let inner ← calls.expression
    expect .rightParen
    return inner
  | _ => unexpected .expression

def member (operand : Expr) : Descent Expr := do
  let name ← name
  if ← isAt .leftParen then
    let arguments ← calls.arguments
    return .methodCall operand name arguments (← fresh (operand.span.merge (← previousSpan)))
  else return .fieldAccess operand name (← fresh (operand.span.merge name.info.span))

def suffixRound (operand : Expr) : Descent (ForInStep Expr) := do
  if ← accept .doubleBang then
    return .yield (.unary .notNull operand (← fresh (operand.span.merge (← previousSpan))))
  else if ← accept .dot then return .yield (← member calls operand)
  else return .done operand

def suffixed : Descent Expr := do loop (suffixRound calls) (← calls.primary)

def applySigns (start : Span) : List UnaryOp → Expr → Descent Expr
  | [], operand => return operand
  | op :: outer, operand => do
    let info ← fresh (start.merge operand.span)
    applySigns start outer (.unary op operand info)

/-- Reads an operand with the operators before it. What follows such an operator is one level
further in. -/
def signed : Descent Expr := do
  let token ← peek
  match token.kind.signs with
  | [] => calls.suffixed
  | signs =>
    advance
    applySigns token.span signs (← nested calls.signed)

/-! ## Operators between operands -/

def binaryRound (least : Nat) (left : Expr) : Descent (ForInStep Expr) := do
  let token ← peek
  match token.kind.binaryOp? with
  | none => return .done left
  | some op =>
    if op.precedence < least then return .done left
    else
      advance
      let right ← calls.binary (op.precedence + 1)
      return .yield (.binary op left right (← fresh (left.span.merge right.span)))

def binary (least : Nat) : Descent Expr := do loop (binaryRound calls least) (← calls.signed)

/-- Reads a conditional, or its condition where no question mark follows. -/
def conditional : Descent Expr := do
  let condition ← calls.binary Precedence.loosestBinary
  if ← accept .question then
    let consequent ← calls.binary Precedence.loosestBinary
    expect .colon
    let alternative ← calls.expression
    let info ← fresh (condition.span.merge alternative.span)
    return .conditional condition consequent alternative info
  else return condition

def expression : Descent Expr := nested calls.conditional

end Functions

/-! ## Calls -/

/-- The functions when no call may be active any more. -/
def Calls.none : Calls :=
  ⟨throw .exhausted, throw .exhausted, fun _ => throw .exhausted, throw .exhausted,
    throw .exhausted, throw .exhausted, throw .exhausted, throw .exhausted⟩

/-- The functions that call those of a record. -/
def Calls.outer (calls : Calls) : Calls where
  expression := Descent.expression calls
  conditional := Descent.conditional calls
  binary := Descent.binary calls
  signed := Descent.signed calls
  suffixed := Descent.suffixed calls
  primary := Descent.primary calls
  arguments := Descent.arguments calls
  fields := Descent.fields calls

/-- The functions when so many calls may be active at once. -/
def Calls.within : Nat → Calls
  | 0 => .none
  | depth + 1 => (within depth).outer

def complete (calls : Calls) : Descent Expr := do
  let expr ← calls.expression
  let token ← peek
  if token.kind.isEnd then return expr else unexpected .endOfInput

/-- The number of calls that may be active at once. -/
def callDepth : Nat := 20 * (Parser.nestingLimit + 1)

end Descent

namespace Session

def parse (session : Session) : EStateM.Result Stop Session Expr :=
  Descent.complete (Descent.Calls.within Descent.callDepth) session

end Session
end ContractExpr
