import ContractExpr.Proofs.Roundtrip.Domain
import ContractExpr.Proofs.Sampling.Promise

/-! # Sampled trees survive

A tree that keeps the promise of a generator is well named, and a tree opens fewer levels than twice
its depth. So a sampled tree that is not too deep survives rendering and parsing.
-/

set_option autoImplicit false

namespace ContractExpr

open Generator Text

/-! ## Names -/

theorem isNameStart_of_isUpper {c : Char} (upper : c.isUpper = true) : isNameStart c = true := by
  rw [isUpper_iff] at upper
  rw [isNameStart_iff]
  omega

theorem usableName_of_keepsText {text : String} (kept : KeepsText text) : UsableName text := by
  obtain ⟨first, rest, chars, upper, -, parts⟩ := fitsPattern_iff.mp kept.1
  refine ⟨?_, kept.2⟩
  rw [chars, isName, isNameStart_of_isUpper upper, List.all_eq_true.mpr parts]
  rfl

/-- A tree that keeps the promise of a generator is well named. -/
theorem Expr.wellNamed_of_keeps {settings : Settings} {tree : Expr}
    (kept : Keeps settings tree) : tree.WellNamed := by
  intro word member
  obtain ⟨node, inTree, inNode⟩ := List.mem_flatMap.mp member
  have keptNode := kept node inTree
  cases node with
  | name given =>
      obtain rfl := List.mem_singleton.mp inNode
      exact usableName_of_keepsText keptNode.2
  | field entry => cases inNode
  | expression expr =>
      cases expr with
      | identifier => exact keptNode.2.elim
      | _ => cases inNode

/-! ## Levels -/

namespace Expr

theorem levelsOfList_le_depthOfList {trees : List Expr}
    (each : ∀ tree ∈ trees, tree.levels < 2 * tree.depth) :
    levelsOfList trees ≤ 2 * depthOfList trees := by
  induction trees with
  | nil => exact Nat.le_refl _
  | cons first rest ih =>
      obtain ⟨front, others⟩ := List.forall_mem_cons.mp each
      have behind := ih others
      simp only [levels, levelsOfList, depthOfList] at *
      omega

theorem levelsOfFields_le_depthOfFields {entries : List (Field Expr)}
    (each : ∀ entry ∈ entries, entry.initializer.levels < 2 * entry.initializer.depth) :
    levelsOfFields entries ≤ 2 * depthOfFields entries := by
  induction entries with
  | nil => exact Nat.le_refl _
  | cons first rest ih =>
      obtain ⟨front, others⟩ := List.forall_mem_cons.mp each
      have behind := ih others
      simp only [levels, levelsOfFields, depthOfFields] at *
      omega

/-- Each step down a tree opens two levels at most: a sign and the parentheses behind it. -/
theorem levels_lt_depth (tree : Expr) : tree.levels < 2 * tree.depth := by
  have grouped (least : Nat) (part : Expr) :
      groupedLevels least part.precedence part.inside ≤ part.inside + 1 := groupedLevels_le
  induction tree using Expr.induct with
  | number | boolean | null | string | identifier => exact Nat.le_refl _
  | twoNots operand near far ih =>
      have inner := grouped Precedence.sign operand
      simp only [levels, inside, depth] at *
      omega
  | unary op operand info single ih =>
      have suffixed := grouped Precedence.access operand
      have signed := grouped Precedence.sign operand
      rw [levels, inside_unary single]
      simp only [levels, depth] at *
      split <;> omega
  | binary op left right info former latter =>
      have front := grouped op.precedence left
      have back := grouped (op.precedence + 1) right
      simp only [levels, inside, depth] at *
      omega
  | conditional condition consequent alternative info first second third =>
      have front := grouped Precedence.loosestBinary condition
      have middle := grouped Precedence.loosestBinary consequent
      simp only [levels, inside, depth] at *
      omega
  | initOf contract arguments info ih =>
      have list := levelsOfList_le_depthOfList ih
      simp only [levels, inside, depth] at *
      omega
  | methodCall receiver method arguments info ih given =>
      have front := grouped Precedence.access receiver
      have list := levelsOfList_le_depthOfList given
      simp only [levels, inside, depth] at *
      omega
  | fieldAccess aggregate field info ih =>
      have front := grouped Precedence.access aggregate
      simp only [levels, inside, depth] at *
      omega
  | call function arguments info ih =>
      have list := levelsOfList_le_depthOfList ih
      simp only [levels, inside, depth] at *
      omega
  | structInstance type fields info ih =>
      have list := levelsOfFields_le_depthOfFields ih
      simp only [levels, inside, depth] at *
      omega

theorem checkRoundtrip_of_keeps {settings : Settings} {tree : Expr} (kept : Keeps settings tree)
    (shallow : 2 * tree.depth ≤ Parser.nestingLimit) : tree.checkRoundtrip = .ok () :=
  checkRoundtrip_of_fits (wellNamed_of_keeps kept)
    (Nat.le_of_lt (Nat.lt_of_lt_of_le tree.levels_lt_depth shallow))

end Expr

end ContractExpr
