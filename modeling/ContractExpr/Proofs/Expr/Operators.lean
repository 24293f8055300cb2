import ContractExpr.Proofs.Expr.Names
import ContractExpr.Proofs.Expr.Replacement
import ContractExpr.Proofs.Expr.Written

/-! # Trees with other binary operators

A tree whose binary operators are changed keeps its names and its literals. When every operator is
changed to one that binds as tightly, the tree opens the same levels when it is written. The two
trees are alike exactly when no operator in the tree was changed.
-/

set_option autoImplicit false

namespace ContractExpr.Expr

/-! ## What holds everywhere in a tree -/

/-- Every expression in a tree, the tree included, has the property. -/
def Everywhere (property : Expr → Prop) (tree : Expr) : Prop :=
  ∀ inner, .expression inner ∈ tree.nodes → property inner

theorem mem_nodesOfList {inner : Expr} {trees : List Expr} :
    .expression inner ∈ nodesOfList trees ↔ ∃ tree ∈ trees, .expression inner ∈ tree.nodes := by
  induction trees with
  | nil => simp [nodesOfList]
  | cons first rest ih => simp [nodesOfList, ih]

theorem mem_nodesOfFields {inner : Expr} {entries : List (Field Expr)} :
    .expression inner ∈ nodesOfFields entries ↔
      ∃ entry ∈ entries, .expression inner ∈ entry.initializer.nodes := by
  induction entries with
  | nil => simp [nodesOfFields]
  | cons first rest ih => simp [nodesOfFields, ih]

theorem mem_nodes {inner tree : Expr} :
    .expression inner ∈ tree.nodes ↔
      inner = tree ∨ ∃ part ∈ tree.parts, .expression inner ∈ part.nodes := by
  cases tree <;> simp [nodes, parts, mem_nodesOfList, mem_nodesOfFields]

theorem everywhere_iff {property : Expr → Prop} {tree : Expr} :
    tree.Everywhere property ↔ property tree ∧ ∀ part ∈ tree.parts, part.Everywhere property := by
  constructor
  · intro all
    exact ⟨all tree (mem_nodes.mpr (.inl rfl)), fun part inParts inner member =>
      all inner (mem_nodes.mpr (.inr ⟨part, inParts, member⟩))⟩
  · rintro ⟨here, below⟩ inner member
    rcases mem_nodes.mp member with rfl | ⟨part, inParts, deeper⟩
    · exact here
    · exact below part inParts inner deeper

theorem induct_parts {motive : Expr → Prop}
    (step : ∀ tree : Expr, (∀ part ∈ tree.parts, motive part) → motive tree) (tree : Expr) :
    motive tree := by
  induction tree using Expr.induct with
  | twoNots operand near far ih => exact step _ (by simpa [parts] using step _ (by simpa [parts]))
  | _ => exact step _ (by simp_all [parts])

/-! ## Other operators -/

mutual

def mapOps (f : BinaryOp → BinaryOp) : Expr → Expr
  | .number value info => .number value info
  | .boolean value info => .boolean value info
  | .null info => .null info
  | .string content info => .string content info
  | .identifier name info => .identifier name info
  | .unary op operand info => .unary op (operand.mapOps f) info
  | .binary op left right info => .binary (f op) (left.mapOps f) (right.mapOps f) info
  | .conditional condition consequent alternative info =>
    .conditional (condition.mapOps f) (consequent.mapOps f) (alternative.mapOps f) info
  | .initOf contract arguments info => .initOf contract (mapOpsOfList f arguments) info
  | .methodCall receiver method arguments info =>
    .methodCall (receiver.mapOps f) method (mapOpsOfList f arguments) info
  | .fieldAccess aggregate field info => .fieldAccess (aggregate.mapOps f) field info
  | .call function arguments info => .call function (mapOpsOfList f arguments) info
  | .structInstance type fields info => .structInstance type (mapOpsOfFields f fields) info

def mapOpsOfList (f : BinaryOp → BinaryOp) : List Expr → List Expr
  | [] => []
  | first :: rest => first.mapOps f :: mapOpsOfList f rest

def mapOpsOfFields (f : BinaryOp → BinaryOp) : List (Field Expr) → List (Field Expr)
  | [] => []
  | ⟨name, initializer, info⟩ :: rest =>
    ⟨name, initializer.mapOps f, info⟩ :: mapOpsOfFields f rest

end

section MapOps

variable (f : BinaryOp → BinaryOp)

@[simp]
theorem mapOpsOfList_eq (trees : List Expr) : mapOpsOfList f trees = trees.map (mapOps f) := by
  induction trees with
  | nil => rfl
  | cons first rest ih => rw [mapOpsOfList, ih, List.map_cons]

@[simp]
theorem mapOpsOfFields_eq (entries : List (Field Expr)) :
    mapOpsOfFields f entries =
      entries.map fun entry => { entry with initializer := entry.initializer.mapOps f } := by
  induction entries with
  | nil => rfl
  | cons first rest ih => rw [mapOpsOfFields, ih, List.map_cons]

theorem isNot_mapOps (tree : Expr) : (tree.mapOps f).isNot = tree.isNot := by
  cases tree with
  | unary op operand info => cases op <;> rfl
  | _ => rfl

theorem parts_mapOps (tree : Expr) : (tree.mapOps f).parts = tree.parts.map (mapOps f) := by
  cases tree <;> simp [mapOps, parts]

theorem mapOps_mapOps (g : BinaryOp → BinaryOp) (tree : Expr) :
    (tree.mapOps f).mapOps g = tree.mapOps (g ∘ f) := by
  induction tree using Expr.induct <;> simp_all [mapOps]

theorem words_mapOps (tree : Expr) : (tree.mapOps f).words = tree.words := by
  induction tree using Expr.induct with
  | initOf contract arguments info ih | methodCall receiver contract arguments info _ ih
  | call contract arguments info ih =>
      have same := List.flatMap_congr ih
      simp_all [mapOps, List.flatMap_map]
  | structInstance type fields info ih =>
      have same := List.flatMap_congr fun entry member =>
        congrArg (entry.name.text :: ·) (ih entry member)
      simpa [mapOps, List.flatMap_map] using same
  | _ => simp_all [mapOps]

/-- What a change of operators keeps of an expression, it keeps everywhere in a tree. -/
theorem Everywhere.mapOps {property : Expr → Prop}
    (kept : ∀ tree, property tree → property (tree.mapOps f)) {tree : Expr}
    (everywhere : tree.Everywhere property) : (tree.mapOps f).Everywhere property := by
  induction tree using induct_parts with
  | step tree ih =>
      obtain ⟨here, below⟩ := everywhere_iff.mp everywhere
      refine everywhere_iff.mpr ⟨kept tree here, ?_⟩
      rw [parts_mapOps, List.forall_mem_map]
      exact fun part member => ih part member (below part member)

def Unchanged : Expr → Prop
  | .binary op _ _ _ => f op = op
  | _ => True

theorem label_mapOps {tree : Expr} : tree.label = (tree.mapOps f).label ↔ tree.Unchanged f := by
  cases tree <;> simp [mapOps, label, Unchanged, eq_comm]

/-- A tree is alike to the one with other operators exactly when none was changed. -/
theorem alike_mapOps {tree : Expr} :
    tree.alike (tree.mapOps f) = true ↔ tree.Everywhere (Unchanged f) := by
  induction tree using induct_parts with
  | step tree ih =>
      rw [alike_iff_parts, everywhere_iff, label_mapOps, parts_mapOps,
        List.forall₂_map_right_iff, List.forall₂_same]
      exact and_congr_right fun _ => forall₂_congr ih

/-! ## Operators that bind as tightly -/

section Strength

variable {f}
variable (tight : ∀ op, (f op).precedence = op.precedence)
include tight

theorem precedence_mapOps (tree : Expr) : (tree.mapOps f).precedence = tree.precedence := by
  cases tree <;> first | rfl | exact tight _

theorem inside_mapOps (tree : Expr) : (tree.mapOps f).inside = tree.inside := by
  induction tree using Expr.induct with
  | twoNots operand near far ih => simp [mapOps, inside, precedence_mapOps tight, ih]
  | unary op operand info single ih =>
      have single' : op = .not → (operand.mapOps f).isNot = false := by
        rw [isNot_mapOps]
        exact single
      rw [mapOps, inside_unary single', inside_unary single, precedence_mapOps tight, ih]
  | initOf contract arguments info ih | methodCall receiver contract arguments info _ ih
  | call contract arguments info ih =>
      have same : levelsOfList (arguments.map (mapOps f)) = levelsOfList arguments := by
        clear * - ih
        induction arguments <;> simp_all [levelsOfList]
      simp_all [mapOps, inside, precedence_mapOps tight]
  | structInstance type fields info ih =>
      simp only [mapOps, inside, mapOpsOfFields_eq]
      induction fields <;> simp_all [levelsOfFields]
  | _ => simp_all [mapOps, inside, precedence_mapOps tight]

theorem levels_mapOps (tree : Expr) : (tree.mapOps f).levels = tree.levels := by
  rw [levels, levels, inside_mapOps tight]

end Strength

end MapOps

end ContractExpr.Expr
