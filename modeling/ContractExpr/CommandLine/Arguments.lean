/-! # Words of a command line

A word is an option, the value of an option or an operand. An option is written in full behind two
dashes or as a letter behind one; it is given at most once. Behind a word of two dashes all words
are operands. Misuse makes the whole reading fail.
-/
set_option autoImplicit false

namespace ContractExpr.CommandLine

structure Known where
  name : String
  letter? : Option Char
  takesValue : Bool
  deriving DecidableEq, Repr

structure Given where
  flags : List String
  values : List (String × String)
  operands : List String
  deriving DecidableEq, Repr

namespace Given

def empty : Given := ⟨[], [], []⟩

def addFlag? (given : Given) (name : String) : Option Given :=
  if given.flags.contains name then none
  else some { given with flags := given.flags ++ [name] }

def addValue? (given : Given) (name value : String) : Option Given :=
  if (given.values.lookup name).isSome then none
  else some { given with values := given.values ++ [(name, value)] }

def addOperand (given : Given) (operand : String) : Given :=
  { given with operands := given.operands ++ [operand] }

end Given

inductive Word where
  /-- Two dashes alone. -/
  | endOfOptions
  /-- A full name, with the value attached behind an equals sign. -/
  | full (name : String) (value? : Option String)
  | letters (letters : List Char)
  | operand (text : String)
  deriving DecidableEq, Repr

namespace Word

def ofString (text : String) : Word :=
  match text.toList with
  | ['-', '-'] => .endOfOptions
  | '-' :: '-' :: rest =>
    let name := rest.takeWhile (· != '=')
    .full (String.ofList name)
      ((rest.drop name.length).head?.map fun _ => String.ofList (rest.drop (name.length + 1)))
  | '-' :: first :: rest => .letters (first :: rest)
  | _ => .operand text

end Word

def addLetters? (known : List Known) (given : Given) : List Char → Option Given
  | [] => some given
  | letter :: rest => do
    let option ← known.find? fun option => option.letter? == some letter && !option.takesValue
    let given ← given.addFlag? option.name
    addLetters? known given rest

/-- Reads words; an option whose value has not come yet is pending. -/
def readWords? (known : List Known) : Option String → Given → List String → Option Given
  | none, given, [] => some given
  | some _, _, [] => none
  | pending, given, text :: rest =>
    match Word.ofString text, pending with
    | .endOfOptions, none => some (rest.foldl Given.addOperand given)
    | .full name value?, none => do
      let option ← known.find? fun option => option.name == name
      match option.takesValue, value? with
      | true, some value => readWords? known none (← given.addValue? name value) rest
      | true, none => readWords? known (some name) given rest
      | false, none => readWords? known none (← given.addFlag? name) rest
      | false, some _ => none
    | .letters letters, none => do readWords? known none (← addLetters? known given letters) rest
    | .operand _, none => readWords? known none (given.addOperand text) rest
    | .operand _, some name => do readWords? known none (← given.addValue? name text) rest
    | _, some _ => none

end ContractExpr.CommandLine
