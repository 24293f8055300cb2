import ContractExpr.Number.Base
/-! # Number literals

A number literal is a base and a natural number of any size. Its digits follow from the two, so
each number has one written form in each base.
-/
set_option autoImplicit false

namespace ContractExpr

structure Number where
  base : Base
  value : Nat
  deriving DecidableEq, Repr, Inhabited

namespace Number

/-- The number that a nonempty run of digits of the base denotes. -/
def ofDigits? (base : Base) (digits : List Char) : Option Number :=
  if digits.isEmpty then none else (base.valueFrom? 0 digits).map (Number.mk base)

def ofWord (base : Base) (word : BitVec 128) : Number := ⟨base, word.toNat⟩

def digits (number : Number) : List Char := number.base.digits number.value

def chars (number : Number) : List Char := number.base.marker ++ number.digits

end Number
end ContractExpr
