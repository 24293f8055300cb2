/-! # Strategies

A strategy draws values at random. Which strategies there are, and what their draws depend on, is
left to a library for property tests; generators are built with the library they are given.
-/
set_option autoImplicit false

namespace ContractExpr

class Strategy (S : Type → Type) where
  /-- What a draw depends on. -/
  Randomness : Type
  /-- The value drawn, unless the draw is rejected. -/
  sample {α : Type} : S α → Randomness → Option α
  just {α : Type} : α → S α
  bool : S Bool
  below (bound : Nat) : 0 < bound → S Nat
  select {α : Type} (options : List α) : options ≠ [] → S α
  union {α : Type} (options : List (S α)) : options ≠ [] → S α
  listOf {α : Type} (item : S α) (least most : Nat) : least ≤ most → S (List α)
  pair {α β : Type} : S α → S β → S (α × β)
  map {α β : Type} : (α → β) → S α → S β
  flatMap {α β : Type} : S α → (α → S β) → S β
  filter {α : Type} (reason : String) (keep : α → Bool) : S α → S α
  filterMap {α β : Type} (reason : String) (f : α → Option β) : S α → S β
  /-- The texts that match a regular expression, or what is wrong with the expression. -/
  regex (pattern : String) : Except String (S String)

end ContractExpr
