import ContractExpr.Expr.Layout
import ContractExpr.Parser.Grammar
/-! # Checking that text and tree agree

A front-end renders trees and parses texts, possibly with effects. `Frontend.check` renders a tree,
parses the text and renders again: the text has to parse, the second text has to be the first one,
and the new tree has to mean the same as the old one, in this order.
-/
set_option autoImplicit false

namespace ContractExpr

structure Frontend (m : Type → Type) where
  render : Expr → m String
  parse : String → m (Except ParseError Expr)

inductive RoundtripFailure where
  | unparseable (rendered : String) (error : ParseError)
  | notIdempotent (first second : String)
  | structuralMismatch (rendered : String) (reparsed : Expr)

namespace RoundtripFailure

def kindName : RoundtripFailure → String
  | .unparseable .. => "unparseable"
  | .notIdempotent .. => "not_idempotent"
  | .structuralMismatch .. => "structural_mismatch"

def message : RoundtripFailure → String
  | .unparseable rendered error =>
    "rendered expression does not parse: " ++ error.message ++ "\n  rendered: " ++ rendered
  | .notIdempotent first second =>
    "rendering is not idempotent\n  first:  " ++ first ++ "\n  second: " ++ second
  | .structuralMismatch rendered _ =>
    "re-parsed tree differs from the original\n  rendered: " ++ rendered

end RoundtripFailure

namespace Frontend

def canonical : Frontend Id := ⟨Expr.render, Expr.parse⟩

@[specialize]
def check {m : Type → Type} [Monad m] (frontend : Frontend m) (expr : Expr) :
    m (Except RoundtripFailure Unit) := do
  let first ← frontend.render expr
  match ← frontend.parse first with
  | .error error => return .error (.unparseable first error)
  | .ok reparsed =>
    let second ← frontend.render reparsed
    if first ≠ second then return .error (.notIdempotent first second)
    else if expr.alike reparsed then return .ok ()
    else return .error (.structuralMismatch first reparsed)

end Frontend

namespace Expr

def checkRoundtrip (expr : Expr) : Except RoundtripFailure Unit := Frontend.canonical.check expr

end Expr
end ContractExpr
