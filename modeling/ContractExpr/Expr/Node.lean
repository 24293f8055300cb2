import ContractExpr.Expr
/-! # The nodes of a tree

Expressions, names and fields are the nodes of a tree. `Expr.nodes` lists them with each node before
its children, and children in the order in which they are written.
-/
set_option autoImplicit false

namespace ContractExpr

inductive Node where
  | expression (expr : Expr)
  | name (given : Name)
  | field (entry : Field Expr)

namespace Node

def info : Node → Info
  | .expression expr => expr.info
  | .name given => given.info
  | .field entry => entry.info

def children : Node → List Node
  | .expression expr =>
    match expr with
    | .number .. | .boolean .. | .null .. | .string .. | .identifier .. => []
    | .unary _ operand _ => [.expression operand]
    | .binary _ left right _ => [.expression left, .expression right]
    | .conditional condition consequent alternative _ =>
      [.expression condition, .expression consequent, .expression alternative]
    | .initOf contract arguments _ => .name contract :: arguments.map .expression
    | .methodCall receiver method arguments _ =>
      .expression receiver :: .name method :: arguments.map .expression
    | .fieldAccess aggregate target _ => [.expression aggregate, .name target]
    | .call function arguments _ => .name function :: arguments.map .expression
    | .structInstance type fields _ => .name type :: fields.map .field
  | .name _ => []
  | .field entry => [.name entry.name, .expression entry.initializer]

end Node

namespace Expr

mutual

def nodes : Expr → List Node
  | .number value info => [.expression (.number value info)]
  | .boolean value info => [.expression (.boolean value info)]
  | .null info => [.expression (.null info)]
  | .string content info => [.expression (.string content info)]
  | .identifier name info => [.expression (.identifier name info)]
  | .unary op operand info => .expression (.unary op operand info) :: operand.nodes
  | .binary op left right info =>
    .expression (.binary op left right info) :: (left.nodes ++ right.nodes)
  | .conditional condition consequent alternative info =>
    .expression (.conditional condition consequent alternative info) ::
      (condition.nodes ++ consequent.nodes ++ alternative.nodes)
  | .initOf contract arguments info =>
    .expression (.initOf contract arguments info) :: .name contract :: nodesOfList arguments
  | .methodCall receiver method arguments info =>
    .expression (.methodCall receiver method arguments info) ::
      (receiver.nodes ++ .name method :: nodesOfList arguments)
  | .fieldAccess aggregate field info =>
    .expression (.fieldAccess aggregate field info) :: (aggregate.nodes ++ [.name field])
  | .call function arguments info =>
    .expression (.call function arguments info) :: .name function :: nodesOfList arguments
  | .structInstance type fields info =>
    .expression (.structInstance type fields info) :: .name type :: nodesOfFields fields

def nodesOfList : List Expr → List Node
  | [] => []
  | first :: rest => first.nodes ++ nodesOfList rest

def nodesOfFields : List (Field Expr) → List Node
  | [] => []
  | ⟨name, initializer, info⟩ :: rest =>
    .field ⟨name, initializer, info⟩ :: .name name :: (initializer.nodes ++ nodesOfFields rest)

end

end Expr
end ContractExpr
