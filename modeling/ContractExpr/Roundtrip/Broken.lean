import ContractExpr.Roundtrip
/-! # Front-ends that are broken on purpose

Each breaks the agreement of text and tree in a way that a check has to notice. Those that behave
differently from call to call count the texts rendered so far.
-/
set_option autoImplicit false

namespace ContractExpr.Frontend

/-- Adds a closing parenthesis that nothing opens. -/
def unbalanced : Frontend Id := ⟨fun expr => expr.render ++ ")", Expr.parse⟩

/-- Adds as many spaces as texts were rendered before. -/
def drifting : Frontend (StateM Nat) where
  render expr := do
    let count ← getModify (· + 1)
    return expr.render ++ String.ofList (List.replicate count ' ')
  parse source := return Expr.parse source

def plusForMinus : List Char → List Char
  | ' ' :: '-' :: ' ' :: rest => ' ' :: '+' :: ' ' :: plusForMinus rest
  | c :: rest => c :: plusForMinus rest
  | [] => []

def swappingMinus : Frontend Id :=
  ⟨fun expr => String.ofList (plusForMinus expr.render.toList), Expr.parse⟩

/-- Adds an unbalanced parenthesis to the first text it renders and to no other. -/
def failingOnce : Frontend (StateM Nat) where
  render expr := do
    let count ← getModify (· + 1)
    return if count = 0 then expr.render ++ ")" else expr.render
  parse source := return Expr.parse source

end ContractExpr.Frontend
