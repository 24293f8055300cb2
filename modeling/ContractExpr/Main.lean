import ContractExpr.CommandLine
/-! # The program

Reads the file that the command names, executes the command, and does what the outcome says.
-/
set_option autoImplicit false

namespace ContractExpr.CommandLine

def contentOf? (file : String) : IO (Option ByteArray) := do
  try return some (← IO.FS.readBinFile file) catch _ => return none

def carryOut (file? : Option String) (outcome : Outcome) : IO UInt32 := do
  if let (some file, some text) := (file?, outcome.written?) then
    try IO.FS.writeFile file text
    catch error =>
      IO.eprintln ("failed to write file: " ++ toString error)
      return 1
  IO.print outcome.output
  if let some diagnostic := outcome.diagnostic? then
    if let some code := diagnostic.code? then IO.eprintln code
    IO.eprintln diagnostic.message
  return UInt32.ofNat outcome.exitCode

def program (words : List String) : IO UInt32 := do
  match Command.ofWords? words with
  | none => carryOut none (.failure .misuse)
  | some command =>
    let content? ← match command.file? with
      | some file => contentOf? file
      | none => pure none
    carryOut command.file? (execute content? (← IO.monoNanosNow) command)

end ContractExpr.CommandLine

def main (words : List String) : IO UInt32 := ContractExpr.CommandLine.program words
