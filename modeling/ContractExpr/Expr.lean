import ContractExpr.Number
import ContractExpr.Operator
import ContractExpr.Span
/-! # Expressions

An expression tree carries at every node, name and field an identity and a span that take no part
in its meaning. `Expr.alike` compares meaning only, and `Expr.mapInfo` changes what is carried.
-/
set_option autoImplicit false

namespace ContractExpr

structure Info where
  id : Nat
  span : Span
  deriving DecidableEq, Repr, Inhabited

namespace Info

/-- The identity zero and the placeholder span, for nodes that were built and not read. -/
def built : Info := ⟨0, Span.placeholder⟩

end Info

/-- A name in a fixed place: of a field, method, function, contract or type. -/
structure Name where
  text : String
  info : Info
  deriving DecidableEq, Repr, Inhabited

structure Field (ε : Type) where
  name : Name
  initializer : ε
  info : Info

inductive Expr where
  | number (value : Number) (info : Info)
  | boolean (value : Bool) (info : Info)
  | null (info : Info)
  | string (content : String) (info : Info)
  /-- A name that stands alone. -/
  | identifier (name : String) (info : Info)
  | unary (op : UnaryOp) (operand : Expr) (info : Info)
  | binary (op : BinaryOp) (left right : Expr) (info : Info)
  | conditional (condition consequent alternative : Expr) (info : Info)
  | initOf (contract : Name) (arguments : List Expr) (info : Info)
  | methodCall (receiver : Expr) (method : Name) (arguments : List Expr) (info : Info)
  | fieldAccess (aggregate : Expr) (field : Name) (info : Info)
  | call (function : Name) (arguments : List Expr) (info : Info)
  | structInstance (type : Name) (fields : List (Field Expr)) (info : Info)

namespace Expr

instance : Inhabited Expr := ⟨.null Info.built⟩

def info : Expr → Info
  | .number _ info | .boolean _ info | .null info | .string _ info | .identifier _ info
  | .unary _ _ info | .binary _ _ _ info | .conditional _ _ _ info
  | .initOf _ _ info | .methodCall _ _ _ info | .fieldAccess _ _ info | .call _ _ info
  | .structInstance _ _ info => info

def span (expr : Expr) : Span := expr.info.span

def kindName : Expr → String
  | .number .. => "number"
  | .boolean .. => "boolean"
  | .null .. => "null"
  | .string .. => "string"
  | .identifier .. => "id"
  | .unary .. => "op_unary"
  | .binary .. => "op_binary"
  | .conditional .. => "conditional"
  | .initOf .. => "init_of"
  | .methodCall .. => "method_call"
  | .fieldAccess .. => "field_access"
  | .call .. => "static_call"
  | .structInstance .. => "struct_instance"

def isLiteral : Expr → Bool
  | .number .. | .boolean .. | .null .. | .string .. => true
  | _ => false

def precedence : Expr → Nat
  | .conditional .. => Precedence.conditional
  | .binary op .. => op.precedence
  | .unary op .. => op.precedence
  | .methodCall .. | .fieldAccess .. => Precedence.access
  | _ => Precedence.primary

/-! ## Depth -/

mutual

/-- The number of expressions on the longest way from the root to a leaf. Names and fields are no
expressions and do not count. -/
def depth : Expr → Nat
  | .number .. | .boolean .. | .null .. | .string .. | .identifier .. => 1
  | .unary _ operand _ => operand.depth + 1
  | .binary _ left right _ => max left.depth right.depth + 1
  | .conditional condition consequent alternative _ =>
    max (max condition.depth consequent.depth) alternative.depth + 1
  | .initOf _ arguments _ => depthOfList arguments + 1
  | .methodCall receiver _ arguments _ => max receiver.depth (depthOfList arguments) + 1
  | .fieldAccess aggregate _ _ => aggregate.depth + 1
  | .call _ arguments _ => depthOfList arguments + 1
  | .structInstance _ fields _ => depthOfFields fields + 1

def depthOfList : List Expr → Nat
  | [] => 0
  | first :: rest => max first.depth (depthOfList rest)

def depthOfFields : List (Field Expr) → Nat
  | [] => 0
  | ⟨_, initializer, _⟩ :: rest => max initializer.depth (depthOfFields rest)

end

/-! ## Changing what nodes carry -/

end Expr

namespace Name

def mapInfo (f : Info → Info) (name : Name) : Name := ⟨name.text, f name.info⟩

end Name

namespace Expr

mutual

def mapInfo (f : Info → Info) : Expr → Expr
  | .number value info => .number value (f info)
  | .boolean value info => .boolean value (f info)
  | .null info => .null (f info)
  | .string content info => .string content (f info)
  | .identifier name info => .identifier name (f info)
  | .unary op operand info => .unary op (operand.mapInfo f) (f info)
  | .binary op left right info => .binary op (left.mapInfo f) (right.mapInfo f) (f info)
  | .conditional condition consequent alternative info =>
    .conditional (condition.mapInfo f) (consequent.mapInfo f) (alternative.mapInfo f) (f info)
  | .initOf contract arguments info =>
    .initOf (contract.mapInfo f) (mapInfoOfList f arguments) (f info)
  | .methodCall receiver method arguments info =>
    .methodCall (receiver.mapInfo f) (method.mapInfo f) (mapInfoOfList f arguments) (f info)
  | .fieldAccess aggregate field info =>
    .fieldAccess (aggregate.mapInfo f) (field.mapInfo f) (f info)
  | .call function arguments info =>
    .call (function.mapInfo f) (mapInfoOfList f arguments) (f info)
  | .structInstance type fields info =>
    .structInstance (type.mapInfo f) (mapInfoOfFields f fields) (f info)

def mapInfoOfList (f : Info → Info) : List Expr → List Expr
  | [] => []
  | first :: rest => first.mapInfo f :: mapInfoOfList f rest

def mapInfoOfFields (f : Info → Info) : List (Field Expr) → List (Field Expr)
  | [] => []
  | ⟨name, initializer, info⟩ :: rest =>
    ⟨name.mapInfo f, initializer.mapInfo f, f info⟩ :: mapInfoOfFields f rest

end

/-! ## Comparing meaning -/

mutual

/-- Whether two trees agree in everything but what their nodes carry. -/
def alike : Expr → Expr → Bool
  | .number value _, .number value' _ => value == value'
  | .boolean value _, .boolean value' _ => value == value'
  | .null _, .null _ => true
  | .string content _, .string content' _ => content == content'
  | .identifier name _, .identifier name' _ => name == name'
  | .unary op operand _, .unary op' operand' _ => op == op' && operand.alike operand'
  | .binary op left right _, .binary op' left' right' _ =>
    op == op' && left.alike left' && right.alike right'
  | .conditional condition consequent alternative _,
    .conditional condition' consequent' alternative' _ =>
    condition.alike condition' && consequent.alike consequent' && alternative.alike alternative'
  | .initOf contract arguments _, .initOf contract' arguments' _ =>
    contract.text == contract'.text && alikeLists arguments arguments'
  | .methodCall receiver method arguments _, .methodCall receiver' method' arguments' _ =>
    receiver.alike receiver' && method.text == method'.text && alikeLists arguments arguments'
  | .fieldAccess aggregate field _, .fieldAccess aggregate' field' _ =>
    aggregate.alike aggregate' && field.text == field'.text
  | .call function arguments _, .call function' arguments' _ =>
    function.text == function'.text && alikeLists arguments arguments'
  | .structInstance type fields _, .structInstance type' fields' _ =>
    type.text == type'.text && alikeFields fields fields'
  | _, _ => false

def alikeLists : List Expr → List Expr → Bool
  | [], [] => true
  | first :: rest, first' :: rest' => first.alike first' && alikeLists rest rest'
  | _, _ => false

def alikeFields : List (Field Expr) → List (Field Expr) → Bool
  | [], [] => true
  | ⟨name, initializer, _⟩ :: rest, ⟨name', initializer', _⟩ :: rest' =>
    name.text == name'.text && initializer.alike initializer' && alikeFields rest rest'
  | _, _ => false

end

end Expr
end ContractExpr
