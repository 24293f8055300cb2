import ContractExpr.Text.Unprintable
/-! # Outlines of values

An outline names a value's parts. It is written on one line, or indented with one part to a line.
-/
set_option autoImplicit false

namespace ContractExpr

inductive Outline where
  /-- A text that is written as it is. -/
  | plain (text : String)
  /-- A text that is written as a quoted string. -/
  | quoted (text : String)
  | record (name : String) (entries : List (String × Outline))
  /-- A named value with one part that has no name. -/
  | wrapped (name : String) (part : Outline)
  | list (items : List Outline)

namespace Outline

open Text

/-- How a character stands in a quoted string: quotes, backslashes and what is not printable are
escaped. -/
def escape (c : Char) : List Char :=
  if c = '"' then ['\\', '"']
  else if c = '\\' then ['\\', '\\']
  else if c = '\n' then ['\\', 'n']
  else if c = '\t' then ['\\', 't']
  else if c = '\r' then ['\\', 'r']
  else if c = '\x00' then ['\\', '0']
  else if isUnprintable c then ['\\', 'u', '\x7b'] ++ Nat.toDigits 16 c.toNat ++ ['\x7d']
  else [c]

def quote (text : String) : String := "\"" ++ String.ofList (text.toList.flatMap escape) ++ "\""

/-! ## On one line -/

mutual

def inline : Outline → String
  | .plain text => text
  | .quoted text => quote text
  | .record name [] => name
  | .record name (first :: rest) =>
    name ++ " \x7b " ++ inlineEntry first ++ inlineEntries rest ++ " \x7d"
  | .wrapped name part => name ++ "(" ++ part.inline ++ ")"
  | .list [] => "[]"
  | .list (first :: rest) => "[" ++ first.inline ++ inlineItems rest ++ "]"

def inlineEntry : String × Outline → String
  | (name, value) => name ++ ": " ++ value.inline

def inlineEntries : List (String × Outline) → String
  | [] => ""
  | next :: rest => ", " ++ inlineEntry next ++ inlineEntries rest

def inlineItems : List Outline → String
  | [] => ""
  | next :: rest => ", " ++ next.inline ++ inlineItems rest

end

/-! ## Indented -/

mutual

/-- The indented text; the margin stands before every line but the first. -/
def indentedBy (margin : String) : Outline → String
  | .plain text => text
  | .quoted text => quote text
  | .record name [] => name
  | .record name (first :: rest) =>
    name ++ " \x7b\n" ++ indentedEntry (margin ++ "    ") first ++
      indentedEntries (margin ++ "    ") rest ++ margin ++ "\x7d"
  | .wrapped name part =>
    name ++ "(\n" ++ margin ++ "    " ++ part.indentedBy (margin ++ "    ") ++ ",\n" ++ margin ++
      ")"
  | .list [] => "[]"
  | .list (first :: rest) =>
    "[\n" ++ margin ++ "    " ++ first.indentedBy (margin ++ "    ") ++ ",\n" ++
      indentedItems (margin ++ "    ") rest ++ margin ++ "]"

def indentedEntry (margin : String) : String × Outline → String
  | (name, value) => margin ++ name ++ ": " ++ value.indentedBy margin ++ ",\n"

def indentedEntries (margin : String) : List (String × Outline) → String
  | [] => ""
  | next :: rest => indentedEntry margin next ++ indentedEntries margin rest

def indentedItems (margin : String) : List Outline → String
  | [] => ""
  | next :: rest => margin ++ next.indentedBy margin ++ ",\n" ++ indentedItems margin rest

end

def indented (outline : Outline) : String := outline.indentedBy ""

end Outline
end ContractExpr
