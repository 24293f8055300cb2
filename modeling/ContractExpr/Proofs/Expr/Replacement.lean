import ContractExpr.Proofs.Expr.Alike

/-! # Trees with one node replaced

The label of a node is what the node says besides its sub-expressions, and its parts are these.
Trees are alike exactly when their labels agree and their parts are alike one by one. A tree in which
one node was replaced, wherever it stands, is alike to the tree before exactly when the two nodes are
alike, so no change of a label or of a list of parts goes unseen.
-/

set_option autoImplicit false

namespace ContractExpr

/-- What a node says besides its sub-expressions: its kind with its operator, literal and names. -/
inductive Label where
  | number (base : Base) (value : Nat)
  | boolean (value : Bool)
  | null
  | string (content : String)
  | identifier (name : String)
  | unary (op : UnaryOp)
  | binary (op : BinaryOp)
  | conditional
  | initOf (contract : String)
  | methodCall (method : String)
  | fieldAccess (field : String)
  | call (function : String)
  | structInstance (type : String) (fields : List String)
  deriving DecidableEq, Repr

namespace Expr

def label : Expr → Label
  | .number value _ => .number value.base value.value
  | .boolean value _ => .boolean value
  | .null _ => .null
  | .string content _ => .string content
  | .identifier name _ => .identifier name
  | .unary op _ _ => .unary op
  | .binary op _ _ _ => .binary op
  | .conditional .. => .conditional
  | .initOf contract _ _ => .initOf contract.text
  | .methodCall _ method _ _ => .methodCall method.text
  | .fieldAccess _ field _ => .fieldAccess field.text
  | .call function _ _ => .call function.text
  | .structInstance type fields _ =>
    .structInstance type.text (fields.map fun entry => entry.name.text)

def parts : Expr → List Expr
  | .number .. | .boolean .. | .null .. | .string .. | .identifier .. => []
  | .unary _ operand _ => [operand]
  | .binary _ left right _ => [left, right]
  | .conditional condition consequent alternative _ => [condition, consequent, alternative]
  | .initOf _ arguments _ => arguments
  | .methodCall receiver _ arguments _ => receiver :: arguments
  | .fieldAccess aggregate _ _ => [aggregate]
  | .call _ arguments _ => arguments
  | .structInstance _ fields _ => fields.map Field.initializer

/-- Two trees that agree in everything but what their nodes carry. -/
abbrev Alike (left right : Expr) : Prop := left.alike right = true

theorem forall₂_alikeFields {entries others : List (Field Expr)} :
    List.Forall₂ AlikeFields entries others ↔
      entries.map (fun entry => entry.name.text) = others.map (fun entry => entry.name.text) ∧
        List.Forall₂ Alike (entries.map Field.initializer) (others.map Field.initializer) := by
  induction entries generalizing others with
  | nil => cases others <;> simp
  | cons first rest ih =>
      cases others with
      | nil => simp
      | cons other others =>
          simp only [List.forall₂_cons, List.map_cons, List.cons.injEq, AlikeFields, Alike, ih]
          tauto

/-- Trees are alike exactly when their labels agree and their parts are alike one by one. -/
theorem alike_iff_parts {left right : Expr} :
    left.alike right = true ↔
      left.label = right.label ∧ List.Forall₂ Alike left.parts right.parts := by
  cases left with
  | number value info =>
      obtain ⟨base, value⟩ := value
      cases right with
      | number value' info' =>
          obtain ⟨base', value'⟩ := value'
          simp [alike, label, parts]
      | _ => simp [alike, label]
  | boolean | null | string | identifier => cases right <;> simp [alike, label, parts]
  | unary | fieldAccess => cases right <;> simp [alike, label, parts, Alike, and_comm]
  | binary | conditional => cases right <;> simp [alike, label, parts, Alike, and_assoc]
  | initOf | call => cases right <;> simp [alike, label, parts, alikeLists_iff]
  | methodCall =>
      cases right <;> simp [alike, label, parts, alikeLists_iff, Alike, and_assoc, and_left_comm]
  | structInstance =>
      cases right <;> simp [alike, label, parts, alikeFields_iff, forall₂_alikeFields, and_assoc]

/-! ## Replacing a node -/

/-- The second tree is the first one with one occurrence of a node replaced by another expression.
The value of a field counts as an occurrence where it is allowed to be replaced. -/
inductive Replaced (allowed : Field Expr → Prop) (node other : Expr) : Expr → Expr → Prop where
  | here : Replaced allowed node other node other
  | operand {tree tree' : Expr} (op : UnaryOp) (info : Info)
      (inner : Replaced allowed node other tree tree') :
      Replaced allowed node other (.unary op tree info) (.unary op tree' info)
  | left {tree tree' : Expr} (op : BinaryOp) (right : Expr) (info : Info)
      (inner : Replaced allowed node other tree tree') :
      Replaced allowed node other (.binary op tree right info) (.binary op tree' right info)
  | right {tree tree' : Expr} (op : BinaryOp) (left : Expr) (info : Info)
      (inner : Replaced allowed node other tree tree') :
      Replaced allowed node other (.binary op left tree info) (.binary op left tree' info)
  | condition {tree tree' : Expr} (consequent alternative : Expr) (info : Info)
      (inner : Replaced allowed node other tree tree') :
      Replaced allowed node other (.conditional tree consequent alternative info)
        (.conditional tree' consequent alternative info)
  | consequent {tree tree' : Expr} (condition alternative : Expr) (info : Info)
      (inner : Replaced allowed node other tree tree') :
      Replaced allowed node other (.conditional condition tree alternative info)
        (.conditional condition tree' alternative info)
  | alternative {tree tree' : Expr} (condition consequent : Expr) (info : Info)
      (inner : Replaced allowed node other tree tree') :
      Replaced allowed node other (.conditional condition consequent tree info)
        (.conditional condition consequent tree' info)
  | initOf {tree tree' : Expr} (contract : Name) (before behind : List Expr) (info : Info)
      (inner : Replaced allowed node other tree tree') :
      Replaced allowed node other (.initOf contract (before ++ tree :: behind) info)
        (.initOf contract (before ++ tree' :: behind) info)
  | receiver {tree tree' : Expr} (method : Name) (arguments : List Expr) (info : Info)
      (inner : Replaced allowed node other tree tree') :
      Replaced allowed node other (.methodCall tree method arguments info)
        (.methodCall tree' method arguments info)
  | methodCall {tree tree' : Expr} (receiver : Expr) (method : Name) (before behind : List Expr)
      (info : Info) (inner : Replaced allowed node other tree tree') :
      Replaced allowed node other (.methodCall receiver method (before ++ tree :: behind) info)
        (.methodCall receiver method (before ++ tree' :: behind) info)
  | aggregate {tree tree' : Expr} (field : Name) (info : Info)
      (inner : Replaced allowed node other tree tree') :
      Replaced allowed node other (.fieldAccess tree field info) (.fieldAccess tree' field info)
  | call {tree tree' : Expr} (function : Name) (before behind : List Expr) (info : Info)
      (inner : Replaced allowed node other tree tree') :
      Replaced allowed node other (.call function (before ++ tree :: behind) info)
        (.call function (before ++ tree' :: behind) info)
  | initializer {entry : Field Expr} {tree' : Expr} (type : Name)
      (before behind : List (Field Expr)) (info : Info) (allows : allowed entry)
      (inner : Replaced allowed node other entry.initializer tree') :
      Replaced allowed node other (.structInstance type (before ++ entry :: behind) info)
        (.structInstance type (before ++ { entry with initializer := tree' } :: behind) info)

theorem alikeLists_refl (trees : List Expr) : alikeLists trees trees = true :=
  alikeLists_iff.mpr (List.forall₂_same.mpr fun tree _ => alike_refl tree)

theorem alikeFields_refl (entries : List (Field Expr)) : alikeFields entries entries = true :=
  alikeFields_iff.mpr
    (List.forall₂_same.mpr fun entry _ => ⟨rfl, alike_refl entry.initializer⟩)

theorem alikeLists_replaced (before behind : List Expr) (tree tree' : Expr) :
    alikeLists (before ++ tree :: behind) (before ++ tree' :: behind) = tree.alike tree' := by
  induction before with
  | nil => simp [alikeLists, alikeLists_refl]
  | cons first before ih => simp [alikeLists, ih]

theorem alikeFields_replaced (before behind : List (Field Expr)) (entry : Field Expr)
    (tree' : Expr) :
    alikeFields (before ++ entry :: behind)
      (before ++ { entry with initializer := tree' } :: behind) =
        entry.initializer.alike tree' := by
  induction before with
  | nil => simp [alikeFields, alikeFields_refl]
  | cons first before ih => simp [alikeFields, ih]

/-- Wherever a node is replaced, the trees are as alike as the two nodes. -/
theorem Replaced.alike_eq {allowed : Field Expr → Prop} {node other tree tree' : Expr}
    (replaced : Replaced allowed node other tree tree') : tree.alike tree' = node.alike other := by
  induction replaced with
  | here => rfl
  | operand | left | right | condition | consequent | alternative | aggregate => simpa [alike]
  | receiver => simpa [alike, alikeLists_refl]
  | initOf | methodCall | call => simpa [alike, alikeLists_replaced]
  | initializer => simpa [alike, alikeFields_replaced]

/-! ## Changes of a node -/

/-- Two expressions differ at their roots: in kind, operator, literal or a name, in how many parts
they have, or in the order of their parts. -/
inductive Differs (node other : Expr) : Prop where
  | label (unequal : node.label ≠ other.label)
  | count (unequal : node.parts.length ≠ other.parts.length)
  | order (permuted : other.parts.Perm node.parts)
      (moved : ¬List.Forall₂ Alike node.parts other.parts)

theorem Differs.not_alike {node other : Expr} (differs : node.Differs other) :
    ¬node.Alike other := by
  intro same
  obtain ⟨labels, parts⟩ := alike_iff_parts.mp same
  cases differs with
  | label unequal => exact unequal labels
  | count unequal => exact unequal parts.length_eq
  | order permuted moved => exact moved parts

/-- Being alike is being equal but for what nodes carry. It is an equivalence, and a tree is not
alike to one in which any node was replaced by an expression that differs from it. -/
theorem alike_exact :
    (∀ left right : Expr, left.alike right = true ↔ left.bare = right.bare) ∧
      Equivalence (fun left right : Expr => left.alike right = true) ∧
      ∀ node other tree tree' : Expr, Replaced (fun _ => True) node other tree tree' →
        node.Differs other → tree.alike tree' = false ∧ tree'.alike tree = false := by
  refine ⟨alike_iff_bare, ⟨alike_refl, alike_symm, alike_trans⟩, ?_⟩
  intro node other tree tree' replaced differs
  have changed : ¬tree.Alike tree' := by
    rw [Alike, replaced.alike_eq]
    exact differs.not_alike
  exact ⟨Bool.eq_false_iff.mpr changed, Bool.eq_false_iff.mpr fun same => changed (alike_symm same)⟩

/-- Two arguments change places, deep inside of other nodes. -/
theorem alike_exact_argumentOrder :
    let leaf (value : Nat) : Expr := .number ⟨.decimal, value⟩ Info.built
    let node : Expr := .call ⟨"F", Info.built⟩ [leaf 1, leaf 2] Info.built
    let other : Expr := .call ⟨"F", Info.built⟩ [leaf 2, leaf 1] Info.built
    let around (inner : Expr) : Expr :=
      .unary .negate (.structInstance ⟨"P", Info.built⟩
        [⟨⟨"X", Info.built⟩, leaf 0, Info.built⟩, ⟨⟨"Y", Info.built⟩, inner, Info.built⟩]
        Info.built) Info.built
    Replaced (fun _ => True) node other (around node) (around other) ∧ node.Differs other ∧
      (around node).alike (around other) = false ∧ (around other).alike (around node) = false := by
  intro leaf node other around
  let first : Field Expr := ⟨⟨"X", Info.built⟩, leaf 0, Info.built⟩
  let second : Field Expr := ⟨⟨"Y", Info.built⟩, node, Info.built⟩
  have field : Replaced (fun _ => True) node other second.initializer other := .here
  have replaced : Replaced (fun _ => True) node other (around node) (around other) :=
    .operand .negate Info.built
      (.initializer ⟨"P", Info.built⟩ [first] [] Info.built trivial field)
  have moved : ¬List.Forall₂ Alike node.parts other.parts := by
    simp [node, other, leaf, parts, Alike, alike]
  have differs : node.Differs other := .order (.swap _ _ _) moved
  exact ⟨replaced, differs, alike_exact.2.2 node other _ _ replaced differs⟩

end Expr
end ContractExpr
