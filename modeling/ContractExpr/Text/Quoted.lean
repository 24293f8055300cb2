import ContractExpr.LexicalError
import ContractExpr.Number.Base
import ContractExpr.Text.CharClass
/-! # String literals

A literal is written between quotes with quotes, backslashes and control characters escaped, and
read back one item at a time: a character that stands for itself, or an escape. A reader tells
what it read and how many characters it took.
-/
set_option autoImplicit false

namespace ContractExpr.Text.Quoted

/-! ## Writing -/

def escape (c : Char) : List Char :=
  if c = '"' then ['\\', '"']
  else if c = '\\' then ['\\', '\\']
  else if c = '\n' then ['\\', 'n']
  else if c = '\t' then ['\\', 't']
  else if c = '\r' then ['\\', 'r']
  else if isControl c then ['\\', 'u', '\x7b'] ++ Base.hexadecimal.digits c.toNat ++ ['\x7d']
  else [c]

def write (content : List Char) : List Char := '"' :: (content.flatMap escape ++ ['"'])

/-! ## Reading -/

/-- The character of a code point; surrogates and numbers beyond Unicode have none. -/
def scalar? (code : Nat) : Option Char :=
  if code.isValidChar then some (Char.ofNat code) else none

def character? (digits : List Char) : Option Char :=
  if digits.length ≤ 6 then
    if digits.isEmpty then none else (Base.hexadecimal.valueFrom? 0 digits).bind scalar?
  else none

def readCodePoint : List Char → Except LexicalError Char × Nat
  | '\x7b' :: rest =>
    let digits := rest.takeWhile Base.hexadecimal.isDigit
    match rest.drop digits.length with
    | '\x7d' :: _ =>
      match character? digits with
      | some c => (.ok c, digits.length + 2)
      | none => (.error (.invalidUnicodeEscape (String.ofList digits)), digits.length + 2)
    | _ => (.error .unterminatedUnicodeEscape, digits.length + 1)
  | _ => (.error .unopenedUnicodeEscape, 0)

def readEscape : List Char → Except LexicalError Char × Nat
  | [] => (.error .unterminatedString, 0)
  | 'n' :: _ => (.ok '\n', 1)
  | 't' :: _ => (.ok '\t', 1)
  | 'r' :: _ => (.ok '\r', 1)
  | '\\' :: _ => (.ok '\\', 1)
  | '"' :: _ => (.ok '"', 1)
  | 'u' :: rest => ((readCodePoint rest).1, (readCodePoint rest).2 + 1)
  | c :: _ => (.error (.invalidEscape c), 1)

/-- Puts a character before a content and counts the characters it was read from. -/
def push (c : Char) (length : Nat) (body : Except LexicalError (List Char) × Nat) :
    Except LexicalError (List Char) × Nat :=
  (body.1.map (c :: ·), length + body.2)

/-- Reads a literal after its opening quote. It ends with the closing quote, or fails at a line
break, at the end of the text or behind a faulty escape. -/
def readBody : List Char → Except LexicalError (List Char) × Nat
  | [] => (.error .unterminatedString, 0)
  | c :: rest =>
    if c = '\n' then (.error .unterminatedString, 0)
    else if c = '"' then (.ok [], 1)
    else if c = '\\' then
      match readEscape rest with
      | (.ok meant, length) => push meant (length + 1) (readBody (rest.drop length))
      | (.error error, length) => (.error error, length + 1)
    else push c 1 (readBody rest)
termination_by text => text.length
decreasing_by all_goals simp; try omega

end ContractExpr.Text.Quoted
