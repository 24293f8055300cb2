import ContractExpr.Proofs.Expr.Written

/-! # How many levels a derivation opens

A derivation has at least as many levels left as its tree opens when it is written, or one less
where fields may leave their values out: such a value opens no level.
-/

set_option autoImplicit false

namespace ContractExpr

open Token

/-! ## Levels of an operand in its place -/

section Grouped

variable {least more strength inside : Nat}

theorem le_groupedLevels : inside ≤ groupedLevels least strength inside := by
  unfold groupedLevels
  split <;> omega

theorem groupedLevels_le : groupedLevels least strength inside ≤ inside + 1 := by
  unfold groupedLevels
  split <;> omega

theorem groupedLevels_mono (weaker : least ≤ more) :
    groupedLevels least strength inside ≤ groupedLevels more strength inside := by
  unfold groupedLevels
  split
  · exact Nat.le_of_eq (if_pos (by omega)).symm
  · split <;> omega

theorem groupedLevels_self : groupedLevels strength strength inside = inside :=
  if_neg (Nat.lt_irrefl _)

end Grouped

namespace Expr

theorem inside_not_of_single {tree : Expr} (info : Info) (single : tree.isNot = false) :
    (unary .not tree info).inside =
      groupedLevels Precedence.sign tree.precedence tree.inside + 1 := by
  rw [inside_unary fun _ => single]
  rfl

/-- A negation in front of a tree adds a level or shares the one of a negation behind it. -/
theorem inside_not (tree : Expr) (info : Info) :
    groupedLevels Precedence.sign tree.precedence tree.inside ≤ (unary .not tree info).inside ∧
      (unary .not tree info).inside ≤
        groupedLevels Precedence.sign tree.precedence tree.inside + 1 := by
  -- of three negations in a row the middle one is paired with the first when written
  induction tree using Expr.induct generalizing info with
  | twoNots operand near far ih =>
      obtain ⟨lower, upper⟩ := ih near
      have outer : (unary .not (unary .not operand near) far).precedence = Precedence.sign := rfl
      have inner : (unary .not operand near).precedence = Precedence.sign := rfl
      rw [outer, groupedLevels_self, inside, inside, inner, groupedLevels_self]
      omega
  | unary op operand near single ih =>
      by_cases negated : op = .not
      · subst negated
        have weak : (unary .not operand near).precedence = Precedence.sign := rfl
        rw [weak, groupedLevels_self, inside, inside_not_of_single near (single rfl)]
        omega
      · have noNot : (unary op operand near).isNot = false := by
          cases op <;> first | rfl | contradiction
        rw [inside_not_of_single info noNot]
        omega
  | _ =>
      rw [inside_not_of_single info rfl]
      omega

end Expr

namespace Grammar

def Phrase.levels : Phrase → Nat
  | .expression tree => tree.levels
  | .chain least tree => groupedLevels least tree.precedence tree.inside
  | .signed tree => groupedLevels Precedence.sign tree.precedence tree.inside
  | .suffixed tree => groupedLevels Precedence.access tree.precedence tree.inside
  | .primary tree => groupedLevels Precedence.primary tree.precedence tree.inside
  | .arguments trees => Expr.levelsOfList trees
  | .field entry => entry.initializer.levels
  | .fields entries => Expr.levelsOfFields entries

theorem levels_sign {op : UnaryOp} (tree : Expr) (info : Info)
    (leads : op.followsOperand = false) :
    (Phrase.signed (.unary op tree info)).levels ≤ (Phrase.signed tree).levels + 1 := by
  have weak : (Expr.unary op tree info).precedence = Precedence.sign := by
    rw [Expr.precedence, UnaryOp.precedence, leads]
    rfl
  rw [Phrase.levels, Phrase.levels, weak, groupedLevels_self]
  by_cases negated : op = .not
  · subst negated
    exact (Expr.inside_not tree info).2
  · rw [Expr.inside_unary fun isNot => absurd isNot negated, leads]
    exact Nat.le_refl _

/-- The trees of a derivation open at most the levels it has left, and one more where values of
fields may be left out. -/
theorem Derives.levels_le {brief : Bool} {left : Nat} {phrase : Phrase} {kinds : List Kind}
    (derived : Derives brief left phrase kinds) : phrase.levels ≤ left + brief.toNat := by
  induction derived with
  | @unconditional left tree _ _ ih =>
      have inner : tree.inside ≤ left + brief.toNat := Nat.le_trans le_groupedLevels ih
      simp only [Phrase.levels, Expr.levels]
      omega
  | conditional info _ _ _ first second third =>
      simp only [Phrase.levels, Expr.levels, Expr.inside] at first second third ⊢
      omega
  | tighter _ _ ih => exact Nat.le_trans (groupedLevels_mono (Nat.le_succ _)) ih
  | binary op info _ _ former latter =>
      simp only [Phrase.levels] at former latter ⊢
      rw [Expr.precedence, groupedLevels_self, Expr.inside]
      exact Nat.max_le.mpr ⟨former, latter⟩
  | operand _ ih => exact ih
  | @sign left tree _ op info leads _ ih =>
      have more := levels_sign tree info leads
      omega
  | @doubleNot left tree _ near far _ ih =>
      have inner : groupedLevels Precedence.sign tree.precedence tree.inside ≤
        left + brief.toNat := ih
      have whole : (Phrase.signed (.unary .not (.unary .not tree near) far)).levels =
        groupedLevels Precedence.sign tree.precedence tree.inside + 1 := rfl
      omega
  | unsigned _ ih => exact Nat.le_trans (groupedLevels_mono (by decide)) ih
  | unsuffixed _ ih => exact Nat.le_trans (groupedLevels_mono (by decide)) ih
  | notNull info _ ih => exact ih
  | fieldAccess field info _ ih => exact ih
  | methodCall method info _ _ ih given => exact Nat.max_le.mpr ⟨ih, given⟩
  | number | boolean | null | string | identifier => exact Nat.zero_le _
  | call function info _ given => exact given
  | structInstance type info _ given => exact given
  | initOf contract info _ given => exact given
  | group _ ih => exact Nat.le_trans groupedLevels_le ih
  | arguments entries _ _ ih =>
      apply Expr.levelsOfList_le.mpr
      intro tree member
      obtain ⟨entry, inEntries, rfl⟩ := List.mem_map.mp member
      exact ih entry inEntries
  | briefField allowed name valueInfo info =>
      subst allowed
      exact Nat.le_add_left 1 _
  | field name info _ ih => exact ih
  | fields entries _ _ ih =>
      apply Expr.levelsOfFields_le.mpr
      intro field member
      obtain ⟨entry, inEntries, rfl⟩ := List.mem_map.mp member
      exact ih entry inEntries

end Grammar
end ContractExpr
