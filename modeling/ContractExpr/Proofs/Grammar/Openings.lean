import Mathlib.Algebra.GroupWithZero.Nat
import ContractExpr.Proofs.Expr.Written
import ContractExpr.Proofs.Token.Openings

/-! # How many parentheses a derivation opens

A derivation has at least as many opening parentheses as its tree is written with. Those of a
derivation that are not written enclose no operand that its place would regroup.
-/

set_option autoImplicit false

namespace ContractExpr

open Token

/-! ## Parentheses of an operand in its place and of lists -/

section Openings

variable {least more strength : Nat} {kinds : List Kind}

theorem openings_grouped :
    openings (grouped least strength kinds) =
      openings kinds + if strength < least then 1 else 0 := by
  unfold grouped
  split <;> simp

theorem openings_grouped_mono (weaker : least ≤ more) :
    openings (grouped least strength kinds) ≤ openings (grouped more strength kinds) := by
  rw [openings_grouped, openings_grouped]
  split <;> split <;> omega

theorem openings_grouped_self : openings (grouped strength strength kinds) = openings kinds := by
  simp [openings_grouped]

theorem openings_le_grouped : openings kinds ≤ openings (grouped least strength kinds) := by
  simp [openings_grouped]

theorem openings_grouped_le : openings (grouped least strength kinds) ≤ openings kinds + 1 := by
  rw [openings_grouped]
  split <;> omega

theorem openings_joined (runs : List (List Kind)) :
    openings (Grammar.joined runs) = (runs.map openings).sum := by
  have further (rest : List (List Kind)) :
      openings (rest.flatMap (Kind.symbol .comma :: ·)) = (rest.map openings).sum := by
    induction rest with
    | nil => rfl
    | cons next rest ih => simp [ih]
  cases runs with
  | nil => rfl
  | cons first rest => simp [Grammar.joined, further]

theorem openings_listing {runs : List (List Kind)} (listed : Grammar.Listing runs kinds) :
    openings kinds = (runs.map openings).sum := by
  cases listed with
  | plain => exact openings_joined runs
  | trailing nonempty => simp [openings_joined]

theorem openings_list_le {α : Type} {entries : List (α × List Kind)} (written : α → List Kind)
    (each : ∀ entry ∈ entries, openings (written entry.1) ≤ openings entry.2)
    (listed : Grammar.Listing (entries.map Prod.snd) kinds) :
    openings (Grammar.joined ((entries.map Prod.fst).map written)) ≤ openings kinds := by
  rw [openings_joined, openings_listing listed]
  clear listed
  induction entries with
  | nil => exact Nat.le_refl _
  | cons first rest ih =>
      obtain ⟨front, others⟩ := List.forall_mem_cons.mp each
      have behind := ih others
      simp only [List.map_cons, List.sum_cons]
      omega

@[simp]
theorem unaryOp_symbol_ne (op : UnaryOp) : op.symbol ≠ .leftParen := by
  cases op <;> decide

@[simp]
theorem binaryOp_symbol_ne (op : BinaryOp) : op.symbol ≠ .leftParen := by
  cases op <;> decide

end Openings

theorem Expr.openings_not (tree : Expr) (info : Info) :
    openings (unary .not tree info).kinds =
      openings (grouped Precedence.sign tree.precedence tree.kinds) := by
  -- of three negations in a row the middle one is paired with the first when written
  induction tree using Expr.induct generalizing info with
  | twoNots operand near far ih =>
      have outer : (unary .not (unary .not operand near) far).precedence = Precedence.sign := rfl
      have inner : (unary .not operand near).precedence = Precedence.sign := rfl
      rw [outer, openings_grouped_self, kinds, openings_cons, inner, openings_grouped_self, ih near,
        kinds, openings_cons]
  | unary op operand near single ih =>
      by_cases negated : op = .not
      · subst negated
        have weak : (unary .not operand near).precedence = Precedence.sign := rfl
        rw [weak, openings_grouped_self, kinds, openings_cons]
        exact (ih near).symm
      · have noNot : (unary op operand near).isNot = false := by
          cases op <;> first | rfl | contradiction
        rw [kinds_unary fun _ => noNot]
        rfl
  | _ =>
      rw [kinds_unary fun _ => rfl]
      rfl

theorem Expr.openings_sign {op : UnaryOp} (leads : op.followsOperand = false) (tree : Expr)
    (info : Info) :
    openings (unary op tree info).kinds =
      openings (grouped Precedence.sign tree.precedence tree.kinds) := by
  by_cases negated : op = .not
  · subst negated
    exact openings_not tree info
  · rw [kinds_unary fun isNot => absurd isNot negated, leads]
    simp

namespace Grammar

def Phrase.kinds : Phrase → List Kind
  | .expression tree => tree.kinds
  | .chain least tree => grouped least tree.precedence tree.kinds
  | .signed tree => grouped Precedence.sign tree.precedence tree.kinds
  | .suffixed tree => grouped Precedence.access tree.precedence tree.kinds
  | .primary tree => grouped Precedence.primary tree.precedence tree.kinds
  | .arguments trees =>
    .symbol .leftParen :: (joined (Expr.kindsOfList trees) ++ [.symbol .rightParen])
  | .field entry => .name entry.name.text :: .symbol .colon :: entry.initializer.kinds
  | .fields entries =>
    .symbol .leftBrace :: (joined (Expr.kindsOfFields entries) ++ [.symbol .rightBrace])

/-- A derivation has all the opening parentheses that are written for its phrase. -/
theorem Derives.openings_le {brief : Bool} {left : Nat} {phrase : Phrase} {kinds : List Kind}
    (derived : Derives brief left phrase kinds) : openings phrase.kinds ≤ openings kinds := by
  induction derived with
  | unconditional _ ih => exact Nat.le_trans openings_le_grouped ih
  | conditional info _ _ _ first second third =>
      simp only [Phrase.kinds, Expr.kinds, openings_append, openings_cons] at first second third ⊢
      omega
  | tighter _ _ ih => exact Nat.le_trans (openings_grouped_mono (Nat.le_succ _)) ih
  | binary op info _ _ former latter =>
      simp only [Phrase.kinds] at former latter ⊢
      rw [Expr.precedence, openings_grouped_self, Expr.kinds]
      simp only [openings_append, openings_cons]
      omega
  | operand _ ih => exact ih
  | @sign left tree _ op info leads _ ih =>
      have weak : (Expr.unary op tree info).precedence = Precedence.sign := by
        rw [Expr.precedence, UnaryOp.precedence, leads]
        rfl
      rw [Phrase.kinds, weak, openings_grouped_self, Expr.openings_sign leads, openings_cons]
      exact Nat.le_add_right_of_le ih
  | @doubleNot left tree _ near far _ ih =>
      have same : openings (Phrase.signed (.unary .not (.unary .not tree near) far)).kinds =
        openings (grouped Precedence.sign tree.precedence tree.kinds) := rfl
      rw [same]
      exact ih
  | unsigned _ ih => exact Nat.le_trans (openings_grouped_mono (by decide)) ih
  | unsuffixed _ ih => exact Nat.le_trans (openings_grouped_mono (by decide)) ih
  | @notNull left tree _ info _ ih =>
      have strong : (Expr.unary .notNull tree info).precedence = Precedence.access := rfl
      simp only [Phrase.kinds] at ih ⊢
      rw [strong, openings_grouped_self, Expr.kinds_unary fun isNot => by cases isNot]
      simpa [UnaryOp.followsOperand] using ih
  | fieldAccess field info _ ih =>
      simp only [Phrase.kinds] at ih ⊢
      rw [Expr.precedence, openings_grouped_self, Expr.kinds]
      simpa using ih
  | methodCall method info _ _ ih given =>
      simp only [Phrase.kinds] at ih given ⊢
      rw [Expr.precedence, openings_grouped_self, Expr.kinds]
      simp only [openings_append, openings_cons] at given ⊢
      omega
  | number | boolean | null | string | identifier => exact Nat.zero_le _
  | call function info _ given => exact given
  | structInstance type info _ given => exact given
  | initOf contract info _ given => exact given
  | group _ ih =>
      rw [openings_cons, openings_append]
      exact Nat.le_trans openings_grouped_le (Nat.succ_le_succ ih)
  | arguments entries _ listed ih =>
      have list := openings_list_le Expr.kinds ih listed
      rw [Phrase.kinds, Expr.kindsOfList_eq]
      simpa using list
  | briefField allowed name valueInfo info => exact Nat.le_refl _
  | field name info _ ih => exact ih
  | fields entries _ listed ih =>
      have list := openings_list_le (fun entry => (Phrase.field entry).kinds) ih listed
      rw [Phrase.kinds, Expr.kindsOfFields_eq, openings_cons, openings_append]
      simpa [Phrase.kinds, Function.comp_def] using list

end Grammar

end ContractExpr
