/-! # Bases of number literals

A base fixes the digits a literal may use and the marker written before them. Digits are ASCII;
letters count in either case.
-/
set_option autoImplicit false

namespace ContractExpr

inductive Base where
  | binary
  | octal
  | decimal
  | hexadecimal
  deriving DecidableEq, Repr, Inhabited

namespace Base

def all : List Base := [.binary, .octal, .decimal, .hexadecimal]

def radix : Base → Nat
  | .binary => 2
  | .octal => 8
  | .decimal => 10
  | .hexadecimal => 16

theorem radix_pos (base : Base) : 0 < base.radix := by cases base <;> decide

/-- The letter that follows the zero of a marker; decimal literals have no marker. -/
def letter? : Base → Option Char
  | .binary => some 'b'
  | .octal => some 'o'
  | .decimal => none
  | .hexadecimal => some 'x'

def marker (base : Base) : List Char :=
  match base.letter? with
  | none => []
  | some letter => ['0', letter]

def digitValue? (c : Char) : Option Nat :=
  if c.isDigit then some (c.toNat - '0'.toNat)
  else if 'a' ≤ c ∧ c ≤ 'f' then some (c.toNat - 'a'.toNat + 10)
  else if 'A' ≤ c ∧ c ≤ 'F' then some (c.toNat - 'A'.toNat + 10)
  else none

def digit? (base : Base) (c : Char) : Option Nat :=
  (digitValue? c).filter fun value => value < base.radix

def isDigit (base : Base) (c : Char) : Bool := (base.digit? c).isSome

/-- The digit of a value, in lowercase. -/
def charOf? (base : Base) (value : Nat) : Option Char :=
  if value < base.radix then some value.digitChar else none

def valueFrom? (base : Base) (value : Nat) : List Char → Option Nat
  | [] => some value
  | c :: rest => (base.digit? c).bind fun digit => base.valueFrom? (value * base.radix + digit) rest

/-- The digits of a value: lowercase, without leading zeros, and `0` for zero. -/
def digits (base : Base) (value : Nat) : List Char := Nat.toDigits base.radix value

end Base
end ContractExpr
