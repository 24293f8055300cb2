import ContractExpr.Proofs.Sampling.Promise

/-! # What strategies can give

The laws say of each strategy that it can give its alternatives and nothing else. Nothing more is
known of the library that generators are built with.
-/

set_option autoImplicit false

namespace ContractExpr

namespace Strategy

/-- Some draw gives the value. -/
def CanGive {S : Type → Type} [Strategy S] {α : Type} (strategy : S α) (value : α) : Prop :=
  ∃ randomness, sample strategy randomness = some value

end Strategy

open Strategy

/-- What is known of a library for property tests: each strategy can give its alternatives and
nothing else. -/
class LawfulStrategy (S : Type → Type) [Strategy S] : Prop where
  canGive_just {α : Type} {given value : α} : CanGive (just given : S α) value ↔ value = given
  canGive_bool {value : Bool} : CanGive (bool : S Bool) value
  canGive_below {bound value : Nat} {positive : 0 < bound} :
    CanGive (below bound positive : S Nat) value ↔ value < bound
  canGive_select {α : Type} {options : List α} {nonempty : options ≠ []} {value : α} :
    CanGive (select options nonempty : S α) value ↔ value ∈ options
  canGive_union {α : Type} {options : List (S α)} {nonempty : options ≠ []} {value : α} :
    CanGive (union options nonempty) value ↔ ∃ option ∈ options, CanGive option value
  canGive_listOf {α : Type} {item : S α} {least most : Nat} {ordered : least ≤ most}
    {values : List α} :
    CanGive (listOf item least most ordered) values ↔
      (least ≤ values.length ∧ values.length ≤ most) ∧ ∀ value ∈ values, CanGive item value
  canGive_pair {α β : Type} {first : S α} {second : S β} {value : α × β} :
    CanGive (pair first second) value ↔ CanGive first value.1 ∧ CanGive second value.2
  canGive_map {α β : Type} {f : α → β} {strategy : S α} {result : β} :
    CanGive (map f strategy) result ↔ ∃ value, CanGive strategy value ∧ f value = result
  canGive_flatMap {α β : Type} {strategy : S α} {next : α → S β} {result : β} :
    CanGive (flatMap strategy next) result ↔
      ∃ value, CanGive strategy value ∧ CanGive (next value) result
  canGive_filter {α : Type} {reason : String} {keep : α → Bool} {strategy : S α} {value : α} :
    CanGive (filter reason keep strategy) value ↔ CanGive strategy value ∧ keep value = true
  canGive_filterMap {α β : Type} {reason : String} {f : α → Option β} {strategy : S α}
    {result : β} :
    CanGive (filterMap reason f strategy) result ↔
      ∃ value, CanGive strategy value ∧ f value = some result
  /-- The pattern is a regular expression, and exactly its texts are given. -/
  canGive_regex : ∃ fitting : S String, regex "[A-Z][A-Za-z0-9_]\x7b0,15\x7d" = .ok fitting ∧
    ∀ text, CanGive fitting text ↔ Generator.FitsPattern text

end ContractExpr
