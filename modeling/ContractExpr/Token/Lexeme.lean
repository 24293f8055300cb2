import ContractExpr.Text.Quoted
import ContractExpr.Token
/-! # The token at the front of a text

`Lexeme.read` tells which token a text without leading blanks begins with and how many characters
belong to it. Every token of a nonempty text takes at least one character.
-/
set_option autoImplicit false

namespace ContractExpr

structure Lexeme where
  kind : Token.Kind
  /-- The number of characters the token takes. -/
  length : Nat
  deriving DecidableEq, Repr, Inhabited

namespace Lexeme

open Text Token

/-! ## Comments -/

/-- Reads a comment after its two slashes: one space is skipped, and the line break that ends the
comment is left. -/
def lineComment (rest : List Char) : Lexeme :=
  let gap := if rest.head? = some ' ' then 1 else 0
  let content := (rest.drop gap).takeWhile (· != '\n')
  ⟨.comment (String.ofList content), 2 + gap + content.length⟩

def blockContent? : List Char → Option (List Char)
  | [] => none
  | '*' :: '/' :: _ => some []
  | c :: rest => (blockContent? rest).map (c :: ·)

/-- Reads a comment after its opening mark. Such comments do not nest. -/
def blockComment (rest : List Char) : Lexeme :=
  match blockContent? rest with
  | some content => ⟨.comment (String.ofList content), 2 + content.length + 2⟩
  | none => ⟨.malformed .unterminatedComment, 2 + rest.length⟩

/-! ## Literals -/

def stringLiteral (rest : List Char) : Lexeme :=
  match Quoted.readBody rest with
  | (.ok content, length) => ⟨.string (String.ofList content), 1 + length⟩
  | (.error error, length) => ⟨.malformed error, 1 + length⟩

inductive DigitFault where
  /-- A letter or digit that the base does not have. -/
  | foreignDigit
  /-- No digit at all, or none after a separator. -/
  | missingDigit
  deriving DecidableEq, Repr

/-- Reads digits of a base, each but the first with at most one separator before it. The flag tells
whether the character before was a digit. A foreign letter or digit is taken and refused. -/
def readDigits (base : Base) : Bool → List Char → Except DigitFault (List Char) × Nat
  | afterDigit, [] => (if afterDigit then .ok [] else .error .missingDigit, 0)
  | afterDigit, c :: rest =>
    if c = '_' ∧ afterDigit then
      let further := readDigits base false rest
      (further.1, further.2 + 1)
    else if base.isDigit c then
      let further := readDigits base true rest
      (further.1.map (c :: ·), further.2 + 1)
    else if c.isAlphanum then (.error .foreignDigit, 1)
    else (if afterDigit then .ok [] else .error .missingDigit, 0)

/-- The base that a literal's marker names, in either case, and the length of the marker. -/
def markedBase : List Char → Base × Nat
  | '0' :: letter :: _ =>
    match Base.all.find? fun base => base.letter? == some letter.toLower with
    | some base => (base, 2)
    | none => (.decimal, 0)
  | _ => (.decimal, 0)

def numberLiteral (text : List Char) : Lexeme :=
  let (base, marker) := markedBase text
  match readDigits base false (text.drop marker) with
  | (.ok digits, length) => ⟨.number base (String.ofList digits), marker + length⟩
  | (.error fault, length) =>
    let literal := String.ofList (text.take (marker + length))
    match fault with
    | .foreignDigit => ⟨.malformed (.invalidDigit literal), marker + length⟩
    | .missingDigit => ⟨.malformed (.malformedNumber literal), marker + length⟩

/-! ## Words and symbols -/

def word (text : List Char) : Lexeme :=
  let taken := text.takeWhile isNamePart
  ⟨.ofWord (String.ofList taken), taken.length⟩

/-- Reads the longest symbol; a character that begins none is refused alone. -/
def symbol (first : Char) (rest : List Char) : Lexeme :=
  match Symbol.longest? first rest with
  | some symbol => ⟨.symbol symbol, symbol.chars.length⟩
  | none => ⟨.malformed (.unexpectedCharacter first), 1⟩

/-! ## All tokens -/

def read : List Char → Lexeme
  | [] => ⟨.endOfInput, 0⟩
  | '/' :: '/' :: rest => lineComment rest
  | '/' :: '*' :: rest => blockComment rest
  | '"' :: rest => stringLiteral rest
  | first :: rest =>
    if first.isDigit then numberLiteral (first :: rest)
    else if isNameStart first then word (first :: rest)
    else symbol first rest

end Lexeme
end ContractExpr
