import ContractExpr.Sampling.Generator
/-! # Samplers

A sampler is a strategy that draws from an endless supply of numbers, one after another from a place
in the supply on. A choice among some options takes one number, and every option comes up for some
number.
-/
set_option autoImplicit false

namespace ContractExpr

abbrev Choices : Type := Nat → Nat

namespace Choices

def scramble (word : UInt64) : UInt64 :=
  let word := (word ^^^ (word >>> 30)) * 0xBF58476D1CE4E5B9
  let word := (word ^^^ (word >>> 27)) * 0x94D049BB133111EB
  word ^^^ (word >>> 31)

/-- The supply of a seed: scrambled words at a fixed distance. -/
def ofSeed (seed : Nat) : Choices := fun index =>
  (scramble (UInt64.ofNat seed + UInt64.ofNat (index + 1) * 0x9E3779B97F4A7C15)).toNat

end Choices

inductive Sampler (α : Type) where
  | give (value : α)
  | reject (reason : String)
  /-- Goes on as told by the next number. -/
  | draw (next : Nat → Sampler α)

namespace Sampler

variable {α β : Type}

/-- Draws from a place on. Gives the value, unless it is rejected, and the place behind the numbers
that were read. -/
def run (choices : Choices) : Sampler α → Nat → Option α × Nat
  | give value, index => (some value, index)
  | reject _, index => (none, index)
  | draw next, index => run choices (next (choices index)) (index + 1)

def bind (next : α → Sampler β) : Sampler α → Sampler β
  | give value => next value
  | reject reason => reject reason
  | draw further => draw fun number => bind next (further number)

def map (f : α → β) (sampler : Sampler α) : Sampler β := sampler.bind fun value => give (f value)

def pair (first : Sampler α) (second : Sampler β) : Sampler (α × β) :=
  first.bind fun former => second.map fun latter => (former, latter)

def filterMap (reason : String) (f : α → Option β) (sampler : Sampler α) : Sampler β :=
  sampler.bind fun value =>
    match f value with
    | some result => give result
    | none => reject reason

def choose (options : List α) (nonempty : options ≠ []) (number : Nat) : α :=
  options.get ⟨number % options.length, Nat.mod_lt _ (List.length_pos_iff.mpr nonempty)⟩

def numberBelow (bound : Nat) : Sampler Nat := draw fun number => give (number % bound)

def element (options : List α) (nonempty : options ≠ []) : Sampler α :=
  draw fun number => give (choose options nonempty number)

def oneOf (options : List (Sampler α)) (nonempty : options ≠ []) : Sampler α :=
  draw (choose options nonempty)

def listOf (item : Sampler α) : Nat → Sampler (List α)
  | 0 => give []
  | count + 1 => item.bind fun first => (listOf item count).map (first :: ·)

def listBetween (item : Sampler α) (least most : Nat) : Sampler (List α) :=
  (numberBelow (most - least + 1)).bind fun further => listOf item (least + further)

def capitals : List Char := "ABCDEFGHIJKLMNOPQRSTUVWXYZ".toList

def nameChars : List Char :=
  "ABCDEFGHIJKLMNOPQRSTUVWXYZabcdefghijklmnopqrstuvwxyz0123456789_".toList

def nameText : Sampler String :=
  (element capitals (by decide)).bind fun first =>
    (listBetween (element nameChars (by decide)) 0 15).map fun rest =>
      String.ofList (first :: rest)

instance : Strategy Sampler where
  Randomness := Choices × Nat
  sample sampler := fun (choices, index) => (sampler.run choices index).1
  just := give
  bool := element [false, true] (by decide)
  below bound _ := numberBelow bound
  select := element
  union := oneOf
  listOf item least most _ := listBetween item least most
  pair := pair
  map := map
  flatMap sampler next := sampler.bind next
  filter reason keep := filterMap reason fun value => if keep value then some value else none
  filterMap := filterMap
  regex pattern :=
    if pattern = "[A-Z][A-Za-z0-9_]\x7b0,15\x7d" then .ok nameText else .error "unknown pattern"

end Sampler

abbrev Generator : Type := Generator.Levels Sampler

def Generator.ofDepth (maxDepth : Nat) (settings : Generator.Settings) :
    Except Generator.Error Generator :=
  Generator.Levels.ofDepth maxDepth settings

end ContractExpr
