import ContractExpr.Expr
import ContractExpr.Outline
/-! # Outlines of expressions

The outline of a tree shows every node with its payload and with the identity and place it carries.
-/
set_option autoImplicit false

namespace ContractExpr

namespace Base

def label : Base → String
  | .binary => "Bin"
  | .octal => "Oct"
  | .decimal => "Dec"
  | .hexadecimal => "Hex"

end Base

namespace UnaryOp

def label : UnaryOp → String
  | .plus => "Plus"
  | .negate => "Neg"
  | .not => "Not"
  | .notNull => "NotNull"
  | .bitNot => "BitNot"

end UnaryOp

namespace BinaryOp

def label : BinaryOp → String
  | .add => "Add"
  | .subtract => "Sub"
  | .multiply => "Mul"
  | .divide => "Div"
  | .modulo => "Mod"
  | .notEqual => "Ne"
  | .greater => "Gt"
  | .less => "Lt"
  | .greaterEqual => "Ge"
  | .lessEqual => "Le"
  | .equal => "Eq"
  | .and => "And"
  | .or => "Or"
  | .shiftLeft => "Shl"
  | .shiftRight => "Shr"
  | .bitAnd => "BitAnd"
  | .bitOr => "BitOr"
  | .bitXor => "BitXor"

end BinaryOp

namespace Number

def outline (number : Number) : Outline :=
  .record "Number"
    [("base", .plain number.base.label), ("digits", .quoted (String.ofList number.digits))]

end Number

namespace Info

def outline (info : Info) : Outline :=
  .record "NodeMeta"
    [("id", .wrapped "NodeId" (.plain (toString info.id))), ("loc", .plain info.span.place)]

def around (info : Info) (payload : Outline) : Outline :=
  .record "Node" [("node", payload), ("meta", info.outline)]

end Info

namespace Name

def outline (name : Name) : Outline := name.info.around (.quoted name.text)

end Name

namespace Expr

mutual

def outline : Expr → Outline
  | .number value info => info.around (.wrapped "Number" value.outline)
  | .boolean value info =>
    info.around (.wrapped "Boolean" (.plain (if value then "true" else "false")))
  | .null info => info.around (.plain "Null")
  | .string content info => info.around (.wrapped "String" (.quoted content))
  | .identifier name info => info.around (.wrapped "Id" (.quoted name))
  | .unary op operand info =>
    info.around (.record "OpUnary" [("op", .plain op.label), ("operand", operand.outline)])
  | .binary op left right info =>
    info.around (.record "OpBinary"
      [("op", .plain op.label), ("left", left.outline), ("right", right.outline)])
  | .conditional condition consequent alternative info =>
    info.around (.record "Conditional"
      [("condition", condition.outline), ("then_branch", consequent.outline),
       ("else_branch", alternative.outline)])
  | .initOf contract arguments info =>
    info.around (.record "InitOf"
      [("contract", contract.outline), ("args", .list (outlineOfList arguments))])
  | .methodCall receiver method arguments info =>
    info.around (.record "MethodCall"
      [("receiver", receiver.outline), ("method", method.outline),
       ("args", .list (outlineOfList arguments))])
  | .fieldAccess aggregate field info =>
    info.around (.record "FieldAccess"
      [("aggregate", aggregate.outline), ("field", field.outline)])
  | .call function arguments info =>
    info.around (.record "StaticCall"
      [("function", function.outline), ("args", .list (outlineOfList arguments))])
  | .structInstance type fields info =>
    info.around (.record "StructInstance"
      [("ty", type.outline), ("args", .list (outlineOfFields fields))])

def outlineOfList : List Expr → List Outline
  | [] => []
  | first :: rest => first.outline :: outlineOfList rest

def outlineOfFields : List (Field Expr) → List Outline
  | [] => []
  | ⟨name, initializer, info⟩ :: rest =>
    info.around (.record "FieldInit"
      [("field", name.outline), ("initializer", initializer.outline)]) :: outlineOfFields rest

end

end Expr
end ContractExpr
