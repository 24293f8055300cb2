/-! # Why a run of characters is no token -/
set_option autoImplicit false

namespace ContractExpr

inductive LexicalError where
  | unterminatedComment
  | unterminatedString
  | invalidEscape (letter : Char)
  /-- The escape of a code point lacks its opening brace. -/
  | unopenedUnicodeEscape
  | unterminatedUnicodeEscape
  /-- The digits of the escape denote no character, or they are none or more than six. -/
  | invalidUnicodeEscape (digits : String)
  | invalidDigit (literal : String)
  | malformedNumber (literal : String)
  | unexpectedCharacter (character : Char)
  deriving DecidableEq, Repr, Inhabited

namespace LexicalError

def message : LexicalError → String
  | .unterminatedComment => "unterminated multi-line comment"
  | .unterminatedString => "unterminated string literal"
  | .invalidEscape letter => "invalid escape sequence: \\" ++ String.singleton letter
  | .unopenedUnicodeEscape => "expected `\x7b` after \\u"
  | .unterminatedUnicodeEscape => "unterminated unicode escape"
  | .invalidUnicodeEscape digits => "invalid unicode escape: \\u\x7b" ++ digits ++ "\x7d"
  | .invalidDigit literal => "invalid digit in number literal: " ++ literal
  | .malformedNumber literal => "malformed number literal: " ++ literal
  | .unexpectedCharacter character => "unexpected character: " ++ String.singleton character

end LexicalError
end ContractExpr
