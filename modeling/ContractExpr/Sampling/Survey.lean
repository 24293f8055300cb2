import ContractExpr.Expr.Node
import ContractExpr.Roundtrip
import ContractExpr.Sampling.Sampler
/-! # What sampled trees cover

A survey tells which kinds, bases and operators occur in some trees, how far the trees reach, and
how many of their names, nodes and trees break what a generator promises.
-/
set_option autoImplicit false

namespace ContractExpr

namespace Sampler

def takeFrom (sampler : Sampler Expr) (choices : Choices) : Nat → Nat → List Expr
  | 0, _ => []
  | count + 1, index =>
    let (sample?, next) := sampler.run choices index
    sample?.toList ++ takeFrom sampler choices count next

def take (sampler : Sampler Expr) (choices : Choices) (count : Nat) : List Expr :=
  sampler.takeFrom choices count 0

end Sampler

structure Survey where
  kinds : List String
  bases : List Base
  unary : List UnaryOp
  binary : List BinaryOp
  /-- The greatest depth. -/
  deepest : Nat
  /-- The greatest number of arguments or fields. -/
  longestList : Nat
  /-- The greatest number of digits. -/
  longestNumber : Nat
  /-- Names and string literals that no generator gives. -/
  badNames : Nat
  /-- Nodes that carry the identity or span of a source. -/
  sourceNodes : Nat
  /-- Trees that do not survive rendering and parsing. -/
  failures : Nat
  deriving Repr, Inhabited

namespace Survey

def expr? : Node → Option Expr
  | .expression expr => some expr
  | _ => none

def base? : Expr → Option Base
  | .number value _ => some value.base
  | _ => none

def unary? : Expr → Option UnaryOp
  | .unary op _ _ => some op
  | _ => none

def binary? : Expr → Option BinaryOp
  | .binary op _ _ _ => some op
  | _ => none

def listLength : Expr → Nat
  | .initOf _ arguments _ | .methodCall _ _ arguments _ | .call _ arguments _ => arguments.length
  | .structInstance _ fields _ => fields.length
  | _ => 0

def digitCount : Expr → Nat
  | .number value _ => value.digits.length
  | _ => 0

/-- A text a generator gives: a capital letter and at most fifteen further characters of a name. -/
def isGeneratedText (text : String) : Bool :=
  match text.toList with
  | [] => false
  | first :: rest =>
    first.isUpper && rest.all Text.isNamePart && decide (rest.length ≤ 15) && !isReserved text

def text? : Node → Option String
  | .name given => some given.text
  | .expression (.string content _) => some content
  | .expression (.identifier name _) => some name
  | _ => none

def largest (numbers : List Nat) : Nat := numbers.foldl max 0

def ofTrees (trees : List Expr) : Survey :=
  let nodes := trees.flatMap Expr.nodes
  let exprs := nodes.filterMap expr?
  { kinds := (exprs.map Expr.kindName).eraseDups
    bases := (exprs.filterMap base?).eraseDups
    unary := (exprs.filterMap unary?).eraseDups
    binary := (exprs.filterMap binary?).eraseDups
    deepest := largest (trees.map Expr.depth)
    longestList := largest (exprs.map listLength)
    longestNumber := largest (exprs.map digitCount)
    badNames := (nodes.filterMap text?).countP (!isGeneratedText ·)
    sourceNodes := nodes.countP fun node => node.info ≠ Info.built
    failures := trees.countP fun tree => tree.checkRoundtrip matches .error _ }

end Survey
end ContractExpr
