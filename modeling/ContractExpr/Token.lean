import ContractExpr.LexicalError
import ContractExpr.Number.Base
import ContractExpr.Operator
import ContractExpr.Span
/-! # Tokens

A token is a kind with a span. Words are reserved or free to be names; the reserved words that
begin an expression have kinds of their own.
-/
set_option autoImplicit false

namespace ContractExpr

/-- The reserved words other than `true` and `false`. -/
def reservedWords : List String :=
  ["fun", "let", "return", "receive", "extend", "external", "native", "primitive", "public", "null",
   "if", "else", "while", "repeat", "do", "until", "try", "catch", "foreach", "as", "map",
   "mutates", "extends", "import", "with", "trait", "initOf", "override", "abstract", "virtual",
   "inline", "const"]

def isReserved (word : String) : Bool :=
  word == "true" || word == "false" || reservedWords.contains word

namespace Token

inductive Kind where
  | boolean (value : Bool)
  | null
  | initOf
  /-- A reserved word that no expression uses. -/
  | reserved (word : String)
  | symbol (mark : Symbol)
  /-- A number literal with its digits as written, separators left out. -/
  | number (base : Base) (digits : String)
  /-- A string literal with its escapes resolved. -/
  | string (content : String)
  | name (text : String)
  | comment (content : String)
  | endOfInput
  | malformed (error : LexicalError)
  deriving DecidableEq, Repr, Inhabited

namespace Kind

def keyword? (word : String) : Option Kind :=
  if word = "true" then some (.boolean true)
  else if word = "false" then some (.boolean false)
  else if word = "null" then some .null
  else if word = "initOf" then some .initOf
  else if reservedWords.contains word then some (.reserved word)
  else none

/-- The kind of a word: reserved words come before names. -/
def ofWord (word : String) : Kind := (keyword? word).getD (.name word)

def isKeyword : Kind → Bool
  | .boolean _ | .null | .initOf | .reserved _ => true
  | _ => false

def isComment : Kind → Bool
  | .comment _ => true
  | _ => false

def isEnd : Kind → Bool
  | .endOfInput => true
  | _ => false

def isMalformed : Kind → Bool
  | .malformed _ => true
  | _ => false

def display : Kind → String
  | .boolean value => if value then "true" else "false"
  | .null => "null"
  | .initOf => "initOf"
  | .reserved word => word
  | .symbol mark => mark.spelling
  | .number base digits => String.ofList base.marker ++ digits
  | .string content => "\"" ++ content ++ "\""
  | .name text => text
  | .comment content => "// " ++ content
  | .endOfInput => "EOF"
  | .malformed error => "ERROR: " ++ error.message

def binaryOp? : Kind → Option BinaryOp
  | .symbol mark => mark.binaryOp?
  | _ => none

def signs : Kind → List UnaryOp
  | .symbol mark => mark.signs
  | _ => []

end Kind
end Token

structure Token where
  kind : Token.Kind
  span : Span
  deriving DecidableEq, Repr, Inhabited

end ContractExpr
