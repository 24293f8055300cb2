import ContractExpr.CommandLine.Arguments
import ContractExpr.Roundtrip.Run
/-! # Commands

A command line names one command with its options, or asks for the version.
-/
set_option autoImplicit false

namespace ContractExpr

inductive Command where
  | version
  | parse (file : String) (verbose : Bool)
  | format (file : String) (inPlace : Bool)
  /-- Without a seed the clock gives one. -/
  | roundtrip (cases maxDepth maxArguments : Nat) (seed? : Option Nat) (verbose : Bool)
  deriving DecidableEq, Repr

namespace Command

open CommandLine

/-! ## Numbers -/

def digitsValue? (text : List Char) : Option Nat :=
  if text.isEmpty then none else Base.decimal.valueFrom? 0 text

/-- A number with an optional plus sign, up to a greatest one. -/
def natural? (most : Nat) (text : String) : Option Nat :=
  (match text.toList with
    | '+' :: digits => digitsValue? digits
    | digits => digitsValue? digits).filter fun value => value ≤ most

/-- As `natural?`, but a minus sign before zero is allowed too. -/
def signedNatural? (most : Nat) (text : String) : Option Nat :=
  match text.toList with
  | '-' :: digits => (digitsValue? digits).filter fun value => value == 0
  | _ => natural? most text

def greatest32 : Nat := UInt32.size - 1

def greatest64 : Nat := UInt64.size - 1

def numberOr? (given : Given) (name : String) (read? : String → Option Nat) (default : Nat) :
    Option Nat :=
  match given.values.lookup name with
  | none => some default
  | some text => read? text

/-! ## Reading a command line -/

def verbose : Known := ⟨"verbose", some 'v', false⟩

def operand? (given : Given) : Option String :=
  match given.operands with
  | [file] => if file.isEmpty then none else some file
  | _ => none

def parse? (words : List String) : Option Command := do
  let given ← readWords? [verbose] none Given.empty words
  return .parse (← operand? given) (given.flags.contains "verbose")

def format? (words : List String) : Option Command := do
  let given ← readWords? [⟨"write", some 'w', false⟩] none Given.empty words
  return .format (← operand? given) (given.flags.contains "write")

def roundtrip? (words : List String) : Option Command := do
  let known : List Known :=
    [⟨"cases", none, true⟩, ⟨"depth", none, true⟩, ⟨"max-args", none, true⟩,
     ⟨"seed", none, true⟩, verbose]
  let given ← readWords? known none Given.empty words
  let standard := Run.Config.standard
  let cases ← numberOr? given "cases" (signedNatural? greatest32) standard.cases
  let maxDepth ← numberOr? given "depth" (natural? greatest64) standard.maxDepth
  let maxArguments ← numberOr? given "max-args" (natural? greatest64) standard.maxArguments
  let seed? ← match given.values.lookup "seed" with
    | none => some none
    | some text => (natural? greatest64 text).map some
  if given.operands.isEmpty then
    return .roundtrip cases maxDepth maxArguments seed? (given.flags.contains "verbose")
  else none

/-- The command of a command line; none if the line is misused. -/
def ofWords? : List String → Option Command
  | "parse" :: words => parse? words
  | "fmt" :: words => format? words
  | "roundtrip" :: words => roundtrip? words
  | word :: _ =>
    match Word.ofString word with
    | .full "version" none => some .version
    | .letters ('V' :: _) => some .version
    | _ => none
  | [] => none

def file? : Command → Option String
  | .parse file _ | .format file _ => some file
  | .version | .roundtrip .. => none

end Command
end ContractExpr
