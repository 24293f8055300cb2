/-! # Places in a text

A position counts bytes of the UTF-8 form, lines and characters. A span is a range of bytes with
the line and column where it begins.
-/
set_option autoImplicit false

namespace ContractExpr

structure Position where
  /-- Bytes before this place. -/
  offset : Nat
  /-- Line, counted from one. -/
  line : Nat
  /-- Column in characters, counted from one. -/
  column : Nat
  deriving DecidableEq, Repr, Inhabited

namespace Position

def start : Position := ⟨0, 1, 1⟩

def after (position : Position) (c : Char) : Position :=
  if c = '\n' then ⟨position.offset + c.utf8Size, position.line + 1, 1⟩
  else ⟨position.offset + c.utf8Size, position.line, position.column + 1⟩

def advance (position : Position) (text : List Char) : Position := text.foldl after position

end Position

structure Span where
  /-- Offset of the first byte. -/
  start : Nat
  /-- Offset behind the last byte. -/
  stop : Nat
  line : Nat
  column : Nat
  deriving DecidableEq, Repr, Inhabited

namespace Span

/-- The span of nodes that were not read from a text. -/
def placeholder : Span := ⟨0, 0, 0, 0⟩

def between (first last : Position) : Span := ⟨first.offset, last.offset, first.line, first.column⟩

/-- The smallest span that covers both, placed where the earlier line begins. -/
def merge (left right : Span) : Span where
  start := min left.start right.start
  stop := max left.stop right.stop
  line := min left.line right.line
  column := if left.line ≤ right.line then left.column else right.column

def length (span : Span) : Nat := span.stop - span.start

def isEmpty (span : Span) : Bool := span.start == span.stop

def place (span : Span) : String := toString span.line ++ ":" ++ toString span.column

end Span
end ContractExpr
