import ContractExpr.Proofs.Expr.Written
import ContractExpr.Proofs.Token.Literals

/-! # A tree is derived from its own tokens

The tokens of a tree stand for it in the grammar, with no field left out and with as many levels as
the tree opens. An operand is derived as the form its place asks for: its own form is loosened, or
it stands in parentheses.
-/

set_option autoImplicit false

namespace ContractExpr.Grammar

open Token

/-- The form of the grammar whose outermost operators have at least the given strength. -/
def Phrase.ofStrength (strength : Nat) (tree : Expr) : Phrase :=
  if strength < Precedence.sign then .chain strength tree
  else if strength = Precedence.sign then .signed tree
  else if strength = Precedence.access then .suffixed tree
  else .primary tree

namespace Derives

variable {brief : Bool} {left : Nat} {tree : Expr} {kinds : List Kind}

theorem chain_of_strength {least : Nat} (bound : least ≤ Precedence.sign)
    (derived : Derives brief left (.ofStrength least tree) kinds) :
    Derives brief left (.chain least tree) kinds := by
  by_cases below : least < Precedence.sign
  · rw [Phrase.ofStrength, if_pos below] at derived
    exact derived
  · have exact_sign : least = Precedence.sign := by omega
    subst exact_sign
    exact .operand derived

theorem loosen_step {strength : Nat} (bound : strength < Precedence.primary)
    (derived : Derives brief left (.ofStrength (strength + 1) tree) kinds) :
    Derives brief left (.ofStrength strength tree) kinds := by
  by_cases below : strength < Precedence.sign
  · rw [Phrase.ofStrength, if_pos below]
    exact .tighter below (chain_of_strength below derived)
  · have cases : strength = Precedence.sign ∨ strength = Precedence.access := by
      simp only [Precedence.sign, Precedence.access, Precedence.primary] at *
      omega
    rcases cases with rfl | rfl
    · exact .unsigned derived
    · exact .unsuffixed derived

/-- A form stands in every place that asks for less strength. -/
theorem loosen {least strength : Nat} (weaker : least ≤ strength)
    (bound : strength ≤ Precedence.primary)
    (derived : Derives brief left (.ofStrength strength tree) kinds) :
    Derives brief left (.ofStrength least tree) kinds := by
  induction weaker with
  | refl => exact derived
  | step weaker ih =>
      exact ih (Nat.le_of_succ_le bound) (loosen_step bound derived)

theorem whole (strength : Nat) (lower : Precedence.loosestBinary ≤ strength)
    (upper : strength ≤ Precedence.primary)
    (derived : Derives brief left (.ofStrength strength tree) kinds) :
    Derives brief (left + 1) (.expression tree) kinds :=
  .unconditional ((derived.loosen lower upper).chain_of_strength (by decide))

end Derives

/-- The tokens of a tree stand for it wherever enough levels are left. -/
structure Spelled (brief : Bool) (tree : Expr) : Prop where
  whole : ∀ left, tree.levels ≤ left → Derives brief left (.expression tree) tree.kinds
  operand : ∀ left, tree.inside ≤ left → Precedence.loosestBinary ≤ tree.precedence →
    Derives brief left (.ofStrength tree.precedence tree) tree.kinds

namespace Spelled

variable {brief : Bool} {tree : Expr}

theorem of_operand (noConditional : Precedence.loosestBinary ≤ tree.precedence)
    (derived : ∀ left, tree.inside ≤ left →
      Derives brief left (.ofStrength tree.precedence tree) tree.kinds) : Spelled brief tree where
  whole left enough := by
    obtain ⟨inner, rfl⟩ := Nat.exists_eq_add_of_lt enough
    have inside : tree.inside ≤ tree.inside + inner := Nat.le_add_right _ _
    exact (derived _ inside).whole tree.precedence noConditional tree.precedence_le_primary
  operand left enough _ := derived left enough

/-- A tree is derived in a place of any strength, in parentheses if need be. -/
theorem inPlace (spelled : Spelled brief tree) {least left : Nat}
    (lower : Precedence.loosestBinary ≤ least) (upper : least ≤ Precedence.primary)
    (enough : groupedLevels least tree.precedence tree.inside ≤ left) :
    Derives brief left (.ofStrength least tree) (grouped least tree.precedence tree.kinds) := by
  unfold groupedLevels at enough
  unfold grouped
  by_cases weak : tree.precedence < least
  · rw [if_pos weak] at enough ⊢
    have group : Derives brief left (.ofStrength Precedence.primary tree)
        (.symbol .leftParen :: (tree.kinds ++ [.symbol .rightParen])) :=
      .group (spelled.whole left enough)
    exact group.loosen upper (Nat.le_refl _)
  · rw [if_neg weak] at enough ⊢
    have strong : least ≤ tree.precedence := Nat.le_of_not_lt weak
    exact (spelled.operand left enough (Nat.le_trans lower strong)).loosen strong
      tree.precedence_le_primary

theorem chain (spelled : Spelled brief tree) {least left : Nat}
    (lower : Precedence.loosestBinary ≤ least) (upper : least ≤ Precedence.sign)
    (enough : groupedLevels least tree.precedence tree.inside ≤ left) :
    Derives brief left (.chain least tree) (grouped least tree.precedence tree.kinds) := by
  have primary : Precedence.sign ≤ Precedence.primary := by decide
  have derived := spelled.inPlace lower (Nat.le_trans upper primary) enough
  exact derived.chain_of_strength upper

theorem signed (spelled : Spelled brief tree) {left : Nat}
    (enough : groupedLevels Precedence.sign tree.precedence tree.inside ≤ left) :
    Derives brief left (.signed tree) (grouped Precedence.sign tree.precedence tree.kinds) :=
  spelled.inPlace (by decide) (by decide) enough

theorem suffixed (spelled : Spelled brief tree) {left : Nat}
    (enough : groupedLevels Precedence.access tree.precedence tree.inside ≤ left) :
    Derives brief left (.suffixed tree) (grouped Precedence.access tree.precedence tree.kinds) :=
  spelled.inPlace (by decide) (by decide) enough

theorem arguments {trees : List Expr} {left : Nat} (each : ∀ tree ∈ trees, Spelled brief tree)
    (enough : Expr.levelsOfList trees ≤ left) :
    Derives brief left (.arguments trees)
      (.symbol .leftParen :: (joined (Expr.kindsOfList trees) ++ [.symbol .rightParen])) := by
  have derived : ∀ entry ∈ trees.map fun tree => (tree, tree.kinds),
      Derives brief left (.expression entry.1) entry.2 := by
    intro entry member
    obtain ⟨tree, inTrees, rfl⟩ := List.mem_map.mp member
    exact (each tree inTrees).whole left (Expr.levelsOfList_le.mp enough tree inTrees)
  have whole := Derives.arguments _ derived .plain
  simpa [Expr.kindsOfList_eq, Function.comp_def] using whole

theorem fields {entries : List (Field Expr)} {left : Nat}
    (each : ∀ entry ∈ entries, Spelled brief entry.initializer)
    (enough : Expr.levelsOfFields entries ≤ left) :
    Derives brief left (.fields entries)
      (.symbol .leftBrace :: (joined (Expr.kindsOfFields entries) ++ [.symbol .rightBrace])) := by
  have derived : ∀ entry ∈ entries.map fun entry =>
        (entry, Kind.name entry.name.text :: .symbol .colon :: entry.initializer.kinds),
      Derives brief left (.field entry.1) entry.2 := by
    intro pair member
    obtain ⟨⟨name, initializer, info⟩, inEntries, rfl⟩ := List.mem_map.mp member
    have below : initializer.levels ≤ left := Expr.levelsOfFields_le.mp enough _ inEntries
    exact .field name info ((each _ inEntries).whole left below)
  have whole := Derives.fields _ derived .plain
  simpa [Expr.kindsOfFields_eq, Function.comp_def] using whole

theorem unary {op : UnaryOp} {operand : Expr} {info : Info}
    (single : op = .not → operand.isNot = false) (inner : Spelled brief operand) :
    Spelled brief (.unary op operand info) := by
  refine of_operand (Nat.le_trans (by decide) op.sign_le_precedence) ?_
  intro left enough
  rw [Expr.inside_unary single] at enough
  rw [Expr.kinds_unary single]
  by_cases follows : op.followsOperand = true
  · have isNotNull : op = .notNull := by cases op <;> first | rfl | cases follows
    subst isNotNull
    exact .notNull info (inner.suffixed enough)
  · rw [if_neg follows] at enough ⊢
    have leads : op.followsOperand = false := by simpa using follows
    have strength : (Expr.unary op operand info).precedence = Precedence.sign := by
      rw [Expr.precedence, UnaryOp.precedence, if_neg follows]
    obtain ⟨below, rfl⟩ : ∃ below, left = below + 1 := ⟨left - 1, by omega⟩
    rw [strength]
    exact .sign op info leads (inner.signed (Nat.le_of_succ_le_succ enough))

theorem twoNots {operand : Expr} (near far : Info) (inner : Spelled brief operand) :
    Spelled brief (.unary .not (.unary .not operand near) far) := by
  have strong : Precedence.loosestBinary ≤ Precedence.sign := by decide
  refine of_operand strong ?_
  intro left enough
  rw [Expr.inside] at enough
  obtain ⟨below, rfl⟩ : ∃ below, left = below + 1 := ⟨left - 1, by omega⟩
  rw [Expr.kinds]
  exact .doubleNot near far (inner.signed (Nat.le_of_succ_le_succ enough))

theorem binary {left right : Expr} (op : BinaryOp) (info : Info) (former : Spelled brief left)
    (latter : Spelled brief right) : Spelled brief (.binary op left right info) := by
  have below := op.precedence_lt_sign
  have lower := op.loosestBinary_le_precedence
  refine of_operand lower ?_
  intro levels enough
  rw [Expr.inside, Nat.max_le] at enough
  have first := former.chain lower (Nat.le_of_lt below) enough.1
  have second := latter.chain (Nat.le_succ_of_le lower) below enough.2
  rw [Expr.precedence, Phrase.ofStrength, if_pos below, Expr.kinds]
  exact .binary op info first second

theorem conditional {condition consequent alternative : Expr} (info : Info)
    (first : Spelled brief condition) (second : Spelled brief consequent)
    (third : Spelled brief alternative) :
    Spelled brief (.conditional condition consequent alternative info) where
  operand left enough strong := by
    have impossible : Precedence.loosestBinary ≤ Precedence.conditional := strong
    exact absurd impossible (by decide)
  whole left enough := by
    obtain ⟨inner, rfl⟩ := Nat.exists_eq_add_one_of_ne_zero (Nat.ne_zero_of_lt enough)
    have inside := Nat.le_of_succ_le_succ enough
    rw [Expr.inside, Nat.max_le, Nat.max_le] at inside
    obtain ⟨⟨before, between⟩, behind⟩ := inside
    have upper : Precedence.loosestBinary ≤ Precedence.sign := by decide
    rw [Expr.kinds]
    exact .conditional info (first.chain (Nat.le_refl _) upper before)
      (second.chain (Nat.le_refl _) upper between) (third.whole inner behind)

theorem fieldAccess {aggregate : Expr} (field : Name) (info : Info)
    (inner : Spelled brief aggregate) : Spelled brief (.fieldAccess aggregate field info) := by
  have strong : Precedence.loosestBinary ≤ Precedence.access := by decide
  refine of_operand strong ?_
  intro left enough
  rw [Expr.inside] at enough
  rw [Expr.kinds]
  exact .fieldAccess field info (inner.suffixed enough)

theorem methodCall {receiver : Expr} {trees : List Expr} (method : Name) (info : Info)
    (inner : Spelled brief receiver) (each : ∀ tree ∈ trees, Spelled brief tree) :
    Spelled brief (.methodCall receiver method trees info) := by
  have strong : Precedence.loosestBinary ≤ Precedence.access := by decide
  refine of_operand strong ?_
  intro left enough
  rw [Expr.inside, Nat.max_le] at enough
  rw [Expr.kinds]
  exact .methodCall method info (inner.suffixed enough.1) (arguments each enough.2)

theorem of_primary (primary : tree.precedence = Precedence.primary)
    (derived : ∀ left, tree.inside ≤ left → Derives brief left (.primary tree) tree.kinds) :
    Spelled brief tree := by
  refine of_operand (by rw [primary]; decide) ?_
  intro left enough
  rw [primary]
  exact derived left enough

end Spelled

/-- The tokens of a tree stand for it. -/
theorem spelled (brief : Bool) (tree : Expr) : Spelled brief tree := by
  induction tree using Expr.induct with
  | number value info =>
      exact .of_primary rfl fun left _ => .number info (ofDigits?_digits value)
  | boolean value info => exact .of_primary rfl fun left _ => .boolean value info
  | null info => exact .of_primary rfl fun left _ => .null info
  | string content info => exact .of_primary rfl fun left _ => .string content info
  | identifier name info => exact .of_primary rfl fun left _ => .identifier name info
  | twoNots operand near far ih => exact ih.twoNots near far
  | unary op operand info single ih => exact ih.unary single
  | binary op left right info former latter => exact former.binary op info latter
  | conditional condition consequent alternative info first second third =>
      exact first.conditional info second third
  | initOf contract arguments info ih =>
      exact .of_primary rfl fun left enough => .initOf contract info (Spelled.arguments ih enough)
  | methodCall receiver method arguments info ih each => exact ih.methodCall method info each
  | fieldAccess aggregate field info ih => exact ih.fieldAccess field info
  | call function arguments info ih =>
      exact .of_primary rfl fun left enough => .call function info (Spelled.arguments ih enough)
  | structInstance type fields info ih =>
      exact .of_primary rfl fun left enough => .structInstance type info (Spelled.fields ih enough)

theorem derives_kinds (tree : Expr) : Derives false tree.levels (.expression tree) tree.kinds :=
  (spelled false tree).whole tree.levels (Nat.le_refl _)

end ContractExpr.Grammar
