import ContractExpr.Token
/-! # Why a text is no expression

An error is a cause at a span. Its message names the place, the cause and what was expected.
-/
set_option autoImplicit false

namespace ContractExpr

/-- What could have stood where an error arose. -/
inductive Expectation where
  | expression
  | identifier
  | endOfInput
  | symbol (mark : Symbol)
  deriving DecidableEq, Repr, Inhabited

namespace Expectation

def text : Expectation → String
  | .expression => "expression"
  | .identifier => "identifier"
  | .endOfInput => "end of input"
  | .symbol mark => "`" ++ mark.spelling ++ "`"

end Expectation

namespace ParseError

inductive Cause where
  | unexpectedToken (expected : Expectation) (found : Token.Kind)
  | unexpectedEnd (expected : Expectation)
  | malformedToken (error : LexicalError)
  | reservedName (word : String)
  | invalidNumber (base : Base) (digits : String)
  | nestedTooDeeply
  deriving DecidableEq, Repr, Inhabited

namespace Cause

/-- The text of a cause that is neither an unexpected token nor an unexpected end. -/
def detail? : Cause → Option String
  | .unexpectedToken .. | .unexpectedEnd .. => none
  | .malformedToken error => some error.message
  | .reservedName word => some ("reserved word `" ++ word ++ "` cannot be used as an identifier")
  | .invalidNumber base digits =>
    some ("invalid number literal: " ++ String.ofList base.marker ++ digits)
  | .nestedTooDeeply => some "expression nested too deeply"

/-- What a message says before and behind the place. -/
def phrases : Cause → String × String
  | .unexpectedToken expected found =>
    ("unexpected token", "expected " ++ expected.text ++ ", found " ++ found.display)
  | .unexpectedEnd expected => ("unexpected end of input", "expected " ++ expected.text)
  | cause => ("invalid syntax", cause.detail?.getD "")

end Cause
end ParseError

structure ParseError where
  cause : ParseError.Cause
  span : Span
  deriving DecidableEq, Repr, Inhabited

namespace ParseError

def message (error : ParseError) : String :=
  error.cause.phrases.1 ++ " at " ++ error.span.place ++ ": " ++ error.cause.phrases.2

end ParseError
end ContractExpr
