import ContractExpr.Roundtrip
import ContractExpr.Sampling.Sampler
/-! # Checking sampled trees

A run leaves it to a test runner to check sampled trees. A tree that the runner reports as failing
is checked again: if it fails again it is a counterexample, and if not the failure was not
reproduced. The runner of this library checks one sample after another and reports the first that
fails.
-/
set_option autoImplicit false

namespace ContractExpr

namespace Run

structure Config where
  /-- How many trees are checked. -/
  cases : Nat
  maxDepth : Nat
  maxArguments : Nat
  seed : Nat
  deriving DecidableEq, Repr, Inhabited

namespace Config

def standard : Config := ⟨1000, 4, 4, 0⟩

def settings (config : Config) : Generator.Settings :=
  ⟨config.maxArguments, Generator.Settings.standard.maxDigits⟩

end Config

structure Counterexample where
  expr : Expr
  rendered : String
  failure : RoundtripFailure

namespace Counterexample

def text (found : Counterexample) : String :=
  "[" ++ found.failure.kindName ++ "] " ++ found.failure.message

end Counterexample

structure Summary where
  cases : Nat
  seed : Nat
  deriving DecidableEq, Repr, Inhabited

inductive Error where
  | generator (error : Generator.Error)
  | counterexample (found : Counterexample)
  /-- A tree failed with this failure and passed when it was checked again. -/
  | notReproduced (failure : RoundtripFailure)
  /-- The runner gave up. -/
  | aborted (reason : String)

namespace Error

def abortReason (failure : RoundtripFailure) : String :=
  "counterexample did not reproduce: " ++ failure.message

def message : Error → String
  | .generator error => "generator error: " ++ error.message
  | .counterexample found => "round-trip counterexample found: " ++ found.text
  | .notReproduced failure => "test runner aborted: " ++ abortReason failure
  | .aborted reason => "test runner aborted: " ++ reason

end Error

inductive Report where
  | passed
  /-- The trial failed on the tree. -/
  | failed (expr : Expr) (failure : RoundtripFailure)
  | aborted (reason : String)

/-- A test runner is given a number of cases, the trees to sample and a trial of a tree. -/
abbrev Runner (S m : Type → Type) : Type :=
  Nat → S Expr → (Expr → m (Except RoundtripFailure Unit)) → m Report

variable {S m : Type → Type} [Strategy S] [Monad m]

/-- Tries samples from a place in the supply on, and stops at the first that fails. A draw that is
rejected is passed over. -/
@[specialize]
def tryInOrder (sampler : Sampler Expr) (trial : Expr → m (Except RoundtripFailure Unit))
    (choices : Choices) : Nat → Nat → m Report
  | 0, _ => return .passed
  | left + 1, index =>
    match sampler.run choices index with
    | (none, next) => tryInOrder sampler trial choices left next
    | (some sample, next) => do
      match ← trial sample with
      | .ok () => tryInOrder sampler trial choices left next
      | .error failure => return .failed sample failure

@[specialize]
def inOrder (choices : Choices) : Runner Sampler m := fun cases sampler trial =>
  tryInOrder sampler trial choices cases 0

@[specialize]
def confirm (frontend : Frontend m) (expr : Expr) (failure : RoundtripFailure) : m Error := do
  let rendered ← frontend.render expr
  match ← frontend.check expr with
  | .error again => return .counterexample ⟨expr, rendered, again⟩
  | .ok () => return .notReproduced failure

@[specialize]
def conclude (frontend : Frontend m) (config : Config) : Report → m (Except Error Summary)
  | .passed => return .ok ⟨config.cases, config.seed⟩
  | .failed expr failure => return .error (← confirm frontend expr failure)
  | .aborted reason => return .error (.aborted reason)

/-- Has the runner check as many trees of the greatest level as the configuration says. -/
@[specialize]
def withRunner (runner : Runner S m) (frontend : Frontend m) (config : Config) :
    m (Except Error Summary) := do
  match Generator.Levels.ofDepth config.maxDepth config.settings with
  | .error error => return .error (.generator error)
  | .ok generator =>
    conclude frontend config (← runner config.cases generator.top frontend.check)

@[specialize]
def start (frontend : Frontend m) (config : Config) : m (Except Error Summary) :=
  withRunner (inOrder (Choices.ofSeed config.seed)) frontend config

end Run
end ContractExpr
