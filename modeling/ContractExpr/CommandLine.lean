import ContractExpr.CommandLine.Command
import ContractExpr.Expr.Outline
/-! # What commands do

Executing a command gives all it does at once: the text on standard output, the diagnostic it ends
with, if any, and the text it puts into its file. A file is written only when nothing went wrong.
-/
set_option autoImplicit false

namespace ContractExpr.CommandLine

inductive Diagnostic where
  /-- The command line names no command. -/
  | misuse
  | unreadable
  | parse (error : ParseError)
  | run (error : Run.Error) (seed : Nat)

namespace Diagnostic

def code? : Diagnostic → Option String
  | .misuse | .unreadable => none
  | .parse _ => some "tact::parse_error"
  | .run (.generator _) _ => some "tact::generator_error"
  | .run (.counterexample _) _ => some "tact::roundtrip_failure"
  | .run (.notReproduced _) _ | .run (.aborted _) _ => none

def message : Diagnostic → String
  | .misuse => "usage: tact [--version] (parse [-v] FILE | fmt [-w] FILE | roundtrip [OPTIONS])"
  | .unreadable => "failed to read file"
  | .parse error => "parse error: " ++ error.message
  | .run (.generator error) _ => "generator error: " ++ error.message
  | .run (.counterexample found) seed =>
    "round-trip failed (" ++ found.failure.kindName ++ ")\nrerun with --seed " ++ toString seed ++
      " to reproduce"
  | .run (.notReproduced failure) _ =>
    "round-trip run aborted: " ++ Run.Error.abortReason failure
  | .run (.aborted reason) _ => "round-trip run aborted: " ++ reason

def exitCode : Diagnostic → Nat
  | .misuse => 2
  | _ => 1

end Diagnostic

structure Outcome where
  output : String
  diagnostic? : Option Diagnostic
  /-- The new content of the file that the command names. -/
  written? : Option String

namespace Outcome

def success (output : String) : Outcome := ⟨output, none, none⟩

def failure (diagnostic : Diagnostic) : Outcome := ⟨"", some diagnostic, none⟩

def exitCode (outcome : Outcome) : Nat := (outcome.diagnostic?.map Diagnostic.exitCode).getD 0

end Outcome

def lines (texts : List String) : String := String.join (texts.map (· ++ "\n"))

/-! ## Commands on a file -/

/-- The expression in a file of the given bytes; no bytes stand for a file that cannot be read. -/
def readExpr (content? : Option ByteArray) : Except Diagnostic Expr :=
  match content?.bind String.fromUTF8? with
  | none => .error .unreadable
  | some source => (Expr.parse source).mapError .parse

def detail : Expr → List String
  | .unary op _ _ => ["  operator " ++ op.symbol.spelling]
  | .binary op _ _ _ => ["  operator " ++ op.symbol.spelling]
  | .initOf contract arguments _ =>
    ["  contract " ++ contract.text ++ " (" ++ toString arguments.length ++ " args)"]
  | .methodCall _ method arguments _ =>
    ["  method " ++ method.text ++ " (" ++ toString arguments.length ++ " args)"]
  | .call function arguments _ =>
    ["  function " ++ function.text ++ " (" ++ toString arguments.length ++ " args)"]
  | .fieldAccess _ field _ => ["  field " ++ field.text]
  | .structInstance type fields _ =>
    ["  struct " ++ type.text ++ " (" ++ toString fields.length ++ " fields)"]
  | _ => []

def summary (expr : Expr) : List String :=
  (expr.kindName ++ " (depth " ++ toString expr.depth ++ ")") :: detail expr

def executeParse (content? : Option ByteArray) (verbose : Bool) : Outcome :=
  match readExpr content? with
  | .error diagnostic => .failure diagnostic
  | .ok expr =>
    .success (lines (if verbose then [expr.outline.indented] else summary expr))

def executeFormat (file : String) (content? : Option ByteArray) (inPlace : Bool) : Outcome :=
  match readExpr content? with
  | .error diagnostic => .failure diagnostic
  | .ok expr =>
    let formatted := lines [expr.render]
    if inPlace then ⟨lines ["formatted: " ++ file], none, some formatted⟩ else .success formatted

/-! ## Checking sampled trees -/

def information (text : String) : String := " INFO " ++ text

/-- A line that is shown only where all is to be told. -/
def debugging (verbose : Bool) (text : String) : List String :=
  if verbose then ["DEBUG " ++ text] else []

def announcement (config : Run.Config) (verbose : Bool) : List String :=
  let limits :=
    " max_depth=" ++ toString config.maxDepth ++ " max_args=" ++ toString config.maxArguments
  debugging verbose ("built expression generator" ++ limits) ++
    [information ("starting round-trip run cases=" ++ toString config.cases ++ limits ++
      " seed=" ++ toString config.seed)]

def report (found : Run.Counterexample) (verbose : Bool) : List String :=
  [information ("round-trip failed kind=" ++ Outline.quote found.failure.kindName ++
    " rendered=" ++ found.rendered)] ++
    debugging verbose ("shrunk counterexample tree=" ++ found.expr.outline.inline) ++
    ["counterexample: " ++ found.rendered, found.failure.message, found.expr.outline.indented]

def executeRoundtrip (config : Run.Config) (verbose : Bool) : Outcome :=
  match (Run.start Frontend.canonical config : Except Run.Error Run.Summary) with
  | .ok summary =>
    .success (lines (announcement config verbose ++
      [information ("all round-trip trials passed cases=" ++ toString summary.cases),
       "ok: " ++ toString summary.cases ++ " expressions round-tripped (seed " ++
         toString summary.seed ++ ")"]))
  | .error error =>
    let output := match error with
      | .generator _ => []
      | .counterexample found => announcement config verbose ++ report found verbose
      | .notReproduced _ | .aborted _ => announcement config verbose
    ⟨lines output, some (.run error config.seed), none⟩

/-! ## All commands -/

def execute (content? : Option ByteArray) (clock : Nat) : Command → Outcome
  | .version => .success (lines ["tact 0.1.0"])
  | .parse _ verbose => executeParse content? verbose
  | .format file inPlace => executeFormat file content? inPlace
  | .roundtrip cases maxDepth maxArguments (some seed) verbose =>
    executeRoundtrip ⟨cases, maxDepth, maxArguments, seed⟩ verbose
  | .roundtrip cases maxDepth maxArguments none verbose =>
    let outcome := executeRoundtrip ⟨cases, maxDepth, maxArguments, clock⟩ verbose
    let notice := information ("no seed given, using clock seed=" ++ toString clock)
    { outcome with output := lines [notice] ++ outcome.output }

end ContractExpr.CommandLine
