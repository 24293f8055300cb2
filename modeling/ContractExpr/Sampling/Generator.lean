import ContractExpr.Expr
import ContractExpr.Sampling.Strategy
import ContractExpr.Token
/-! # Random expressions of bounded depth

A tree of level one is a literal; a tree of a higher level is a literal or is composed of trees of
the level below. Names begin with a capital letter, so none of them is reserved, and no name stands
alone.
-/
set_option autoImplicit false

namespace ContractExpr

namespace Generator

open Strategy

structure Settings where
  /-- The greatest number of arguments or fields. -/
  maxArguments : Nat
  /-- The greatest number of digits; at least one digit is allowed in any case. -/
  maxDigits : Nat
  deriving DecidableEq, Repr, Inhabited

def Settings.standard : Settings := ⟨4, 40⟩

inductive Error where
  | invalidDepth (depth : Nat)
  /-- The library does not take the pattern of names. -/
  | invalidPattern (pattern reason : String)
  deriving DecidableEq, Repr, Inhabited

def Error.message : Error → String
  | .invalidDepth depth =>
    "invalid generator depth " ++ toString depth ++ ": must be at least 1"
  | .invalidPattern pattern reason =>
    "invalid identifier pattern `" ++ pattern ++ "`: " ++ reason

variable {S : Type → Type} [Strategy S]

/-! ## Names and literals -/

/-- A capital letter and at most fifteen further characters of a name. -/
def namePattern : String := "[A-Z][A-Za-z0-9_]\x7b0,15\x7d"

def text : Except Error (S String) :=
  match regex namePattern with
  | .error reason => .error (.invalidPattern namePattern reason)
  | .ok fitting => .ok (filter "reserved word" (fun word => !isReserved word) fitting)

def name (text : S String) : S Name := map (fun given => ⟨given, Info.built⟩) text

def number (settings : Settings) : S Expr :=
  map (fun value => .number value Info.built) <|
    flatMap (select Base.all (by decide)) fun base =>
      filterMap "digit outside base"
        (fun digits => Number.ofDigits? base (digits.filterMap base.charOf?))
        (listOf (below base.radix base.radix_pos) 1 (max settings.maxDigits 1)
          (Nat.le_max_right _ _))

def boolean : S Expr := map (fun value => .boolean value Info.built) bool

def null : S Expr := just (.null Info.built)

def string (text : S String) : S Expr := map (fun content => .string content Info.built) text

def literal (settings : Settings) (text : S String) : S Expr :=
  union [number settings, boolean, null, string text] (by simp)

/-! ## Composed expressions -/

section Composed

variable (settings : Settings) (name : S Name) (part : S Expr)

def arguments : S (List Expr) := listOf part 0 settings.maxArguments (Nat.zero_le _)

def unary : S Expr :=
  map (fun (op, operand) => .unary op operand Info.built)
    (pair (select UnaryOp.all (by decide)) part)

def binary : S Expr :=
  map (fun (op, left, right) => .binary op left right Info.built)
    (pair (select BinaryOp.all (by decide)) (pair part part))

def conditional : S Expr :=
  map (fun (condition, consequent, alternative) =>
    .conditional condition consequent alternative Info.built) (pair part (pair part part))

def fieldAccess : S Expr :=
  map (fun (aggregate, field) => .fieldAccess aggregate field Info.built) (pair part name)

def methodCall : S Expr :=
  map (fun (receiver, method, given) => .methodCall receiver method given Info.built)
    (pair part (pair name (arguments settings part)))

def call : S Expr :=
  map (fun (function, given) => .call function given Info.built)
    (pair name (arguments settings part))

def initOf : S Expr :=
  map (fun (contract, given) => .initOf contract given Info.built)
    (pair name (arguments settings part))

def field : S (Field Expr) :=
  map (fun (name, initializer) => ⟨name, initializer, Info.built⟩) (pair name part)

def structInstance : S Expr :=
  map (fun (type, fields) => .structInstance type fields Info.built)
    (pair name (listOf (field name part) 0 settings.maxArguments (Nat.zero_le _)))

def composed : List (S Expr) :=
  [unary part, binary part, conditional part, fieldAccess name part, methodCall settings name part,
   call settings name part, initOf settings name part, structInstance settings name part]

end Composed

/-- Trees of the level one above the given number. -/
def tree (settings : Settings) (text : S String) : Nat → S Expr
  | 0 => literal settings text
  | below + 1 =>
    union (literal settings text :: composed settings (name text) (tree settings text below))
      (by simp)

/-! ## Levels -/

/-- A generator: the strategies of the levels from one to a greatest one. -/
structure Levels (S : Type → Type) where
  settings : Settings
  strategies : List (S Expr)
  nonempty : strategies ≠ []

namespace Levels

def ofDepth (maxDepth : Nat) (settings : Settings) : Except Error (Levels S) :=
  if positive : 0 < maxDepth then do
    let text ← text
    return ⟨settings, (List.range maxDepth).map (tree settings text), by
      simpa using Nat.pos_iff_ne_zero.mp positive⟩
  else .error (.invalidDepth maxDepth)

def maxDepth (levels : Levels S) : Nat := levels.strategies.length

def atDepth? (levels : Levels S) : Nat → Option (S Expr)
  | 0 => none
  | depth + 1 => levels.strategies[depth]?

def top (levels : Levels S) : S Expr := levels.strategies.getLast levels.nonempty

end Levels

end Generator
end ContractExpr
