/-! # Classes of characters

Blanks and control characters are sets of Unicode code points, given as closed ranges.
Names and number literals are made of ASCII characters only.
-/
set_option autoImplicit false

namespace ContractExpr.Text

def inRanges (ranges : List (Nat × Nat)) (code : Nat) : Bool :=
  ranges.any fun range => range.1 ≤ code && code ≤ range.2

/-- The code points with the Unicode property White_Space. -/
def blankRanges : List (Nat × Nat) :=
  [(0x09, 0x0D), (0x20, 0x20), (0x85, 0x85), (0xA0, 0xA0), (0x1680, 0x1680), (0x2000, 0x200A),
   (0x2028, 0x2029), (0x202F, 0x202F), (0x205F, 0x205F), (0x3000, 0x3000)]

def isBlank (c : Char) : Bool := inRanges blankRanges c.toNat

/-- The characters of the Unicode category Cc. -/
def isControl (c : Char) : Bool := inRanges [(0x00, 0x1F), (0x7F, 0x9F)] c.toNat

def isNameStart (c : Char) : Bool := c.isAlpha || c == '_'

def isNamePart (c : Char) : Bool := c.isAlphanum || c == '_'

def isName : List Char → Bool
  | [] => false
  | first :: rest => isNameStart first && rest.all isNamePart

end ContractExpr.Text
