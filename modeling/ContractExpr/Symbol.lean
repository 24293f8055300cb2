/-! # Symbols

The tokens of fixed spelling that are not words. A symbol is read by its longest spelling.
-/
set_option autoImplicit false

namespace ContractExpr

inductive Symbol where
  | leftParen | rightParen | leftBrace | rightBrace | comma | colon | dot | question | assign
  | plus | minus | star | slash | percent
  | equal | notEqual | less | lessEqual | greater | greaterEqual
  | bang | doubleBang | tilde | doubleAmpersand | doublePipe
  | ampersand | pipe | caret | shiftLeft | shiftRight
  deriving DecidableEq, Repr, Inhabited

namespace Symbol

def all : List Symbol :=
  [.leftParen, .rightParen, .leftBrace, .rightBrace, .comma, .colon, .dot, .question, .assign,
   .plus, .minus, .star, .slash, .percent,
   .equal, .notEqual, .less, .lessEqual, .greater, .greaterEqual,
   .bang, .doubleBang, .tilde, .doubleAmpersand, .doublePipe,
   .ampersand, .pipe, .caret, .shiftLeft, .shiftRight]

def chars : Symbol → List Char
  | .leftParen => ['(']
  | .rightParen => [')']
  | .leftBrace => ['\x7b']
  | .rightBrace => ['\x7d']
  | .comma => [',']
  | .colon => [':']
  | .dot => ['.']
  | .question => ['?']
  | .assign => ['=']
  | .plus => ['+']
  | .minus => ['-']
  | .star => ['*']
  | .slash => ['/']
  | .percent => ['%']
  | .equal => ['=', '=']
  | .notEqual => ['!', '=']
  | .less => ['<']
  | .lessEqual => ['<', '=']
  | .greater => ['>']
  | .greaterEqual => ['>', '=']
  | .bang => ['!']
  | .doubleBang => ['!', '!']
  | .tilde => ['~']
  | .doubleAmpersand => ['&', '&']
  | .doublePipe => ['|', '|']
  | .ampersand => ['&']
  | .pipe => ['|']
  | .caret => ['^']
  | .shiftLeft => ['<', '<']
  | .shiftRight => ['>', '>']

def spelling (symbol : Symbol) : String := String.ofList symbol.chars

def ofChars? (text : List Char) : Option Symbol := all.find? fun symbol => symbol.chars == text

/-- The longest symbol at the front of a character and what follows it. -/
def longest? (first : Char) (rest : List Char) : Option Symbol :=
  (ofChars? (first :: rest.take 1)).or (ofChars? [first])

end Symbol
end ContractExpr
