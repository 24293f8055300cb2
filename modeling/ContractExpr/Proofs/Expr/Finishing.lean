import ContractExpr.Proofs.Expr.Induction

/-! # Nodes in the order in which they are finished

A node is finished behind its children, which are finished one after the other. This order lists the
same nodes as `Expr.nodes`, and what a node is finished behind stands in one piece before it.
-/

set_option autoImplicit false

namespace ContractExpr

namespace Expr

mutual

/-- The nodes of a tree, each behind its children. -/
def finished : Expr → List Node
  | .number value info => [.expression (.number value info)]
  | .boolean value info => [.expression (.boolean value info)]
  | .null info => [.expression (.null info)]
  | .string content info => [.expression (.string content info)]
  | .identifier name info => [.expression (.identifier name info)]
  | .unary op operand info => operand.finished ++ [.expression (.unary op operand info)]
  | .binary op left right info =>
    left.finished ++ right.finished ++ [.expression (.binary op left right info)]
  | .conditional condition consequent alternative info =>
    condition.finished ++ consequent.finished ++ alternative.finished ++
      [.expression (.conditional condition consequent alternative info)]
  | .initOf contract arguments info =>
    .name contract :: finishedOfList arguments ++ [.expression (.initOf contract arguments info)]
  | .methodCall receiver method arguments info =>
    receiver.finished ++ .name method :: finishedOfList arguments ++
      [.expression (.methodCall receiver method arguments info)]
  | .fieldAccess aggregate field info =>
    aggregate.finished ++ [.name field, .expression (.fieldAccess aggregate field info)]
  | .call function arguments info =>
    .name function :: finishedOfList arguments ++ [.expression (.call function arguments info)]
  | .structInstance type fields info =>
    .name type :: finishedOfFields fields ++ [.expression (.structInstance type fields info)]

def finishedOfList : List Expr → List Node
  | [] => []
  | first :: rest => first.finished ++ finishedOfList rest

def finishedOfFields : List (Field Expr) → List Node
  | [] => []
  | ⟨name, initializer, info⟩ :: rest =>
    .name name :: initializer.finished ++ .field ⟨name, initializer, info⟩ :: finishedOfFields rest

end

end Expr

namespace Node

def finished : Node → List Node
  | .expression tree => tree.finished
  | .name given => [.name given]
  | .field entry => .name entry.name :: entry.initializer.finished ++ [.field entry]

theorem finishedOfList_eq (trees : List Expr) :
    Expr.finishedOfList trees = (trees.map expression).flatMap finished := by
  induction trees with
  | nil => rfl
  | cons first rest ih => simp [Expr.finishedOfList, ih, finished]

theorem finishedOfFields_eq (entries : List (Field Expr)) :
    Expr.finishedOfFields entries = (entries.map field).flatMap finished := by
  induction entries with
  | nil => rfl
  | cons first rest ih => simp [Expr.finishedOfFields, ih, finished]

theorem finished_eq (node : Node) : node.finished = node.children.flatMap finished ++ [node] := by
  cases node with
  | name | field => simp [finished, children]
  | expression tree =>
      cases tree <;>
        simp [finished, Expr.finished, children, finishedOfList_eq, finishedOfFields_eq]

theorem induct {motive : Node → Prop}
    (step : ∀ node : Node, (∀ child ∈ node.children, motive child) → motive node) (node : Node) :
    motive node := by
  have name (given : Name) : motive (.name given) := step _ (by simp [children])
  have field {entry : Field Expr} (inner : motive (.expression entry.initializer)) :
      motive (.field entry) := step _ (by simpa [children] using ⟨name _, inner⟩)
  have expression (tree : Expr) : motive (.expression tree) := by
    induction tree using Expr.induct with
    | number | boolean | null | string | identifier => exact step _ (by simp [children])
    | twoNots operand near far ih =>
        have inner : motive (.expression (.unary .not operand near)) :=
          step _ (by simpa [children] using ih)
        exact step _ (by simpa [children] using inner)
    | unary op operand info single ih => exact step _ (by simpa [children] using ih)
    | binary op left right info former latter =>
        exact step _ (by simpa [children] using ⟨former, latter⟩)
    | conditional condition consequent alternative info first second third =>
        exact step _ (by simpa [children] using ⟨first, second, third⟩)
    | initOf contract arguments info each | call contract arguments info each =>
        exact step _ (by simpa [children] using ⟨name contract, each⟩)
    | methodCall receiver method arguments info ih each =>
        exact step _ (by simpa [children] using ⟨ih, name method, each⟩)
    | fieldAccess aggregate target info ih =>
        exact step _ (by simpa [children] using ⟨ih, name target⟩)
    | structInstance type fields info each =>
        exact step _
          (by simpa [children] using ⟨name type, fun entry member => field (each entry member)⟩)
  cases node with
  | expression tree => exact expression tree
  | name given => exact name given
  | field entry => exact field (expression _)

/-- The nodes below a node are finished in one piece, just before it. -/
theorem finished_infix {node inner : Node} (member : inner ∈ node.finished) :
    inner.finished <:+: node.finished := by
  induction node using induct with
  | step node ih =>
      rw [finished_eq] at member
      rcases List.mem_append.mp member with below | isRoot
      · obtain ⟨child, inChildren, inChild⟩ := List.mem_flatMap.mp below
        have whole : child.finished <:+: node.children.flatMap finished :=
          List.infix_of_mem_flatten (List.mem_map_of_mem inChildren)
        rw [finished_eq node]
        exact ((ih child inChildren inChild).trans whole).trans (List.prefix_append _ _).isInfix
      · obtain rfl := List.mem_singleton.mp isRoot
        exact List.infix_rfl

end Node

namespace Expr

theorem finishedOfList_perm {trees : List Expr}
    (each : ∀ tree ∈ trees, tree.finished.Perm tree.nodes) :
    (finishedOfList trees).Perm (nodesOfList trees) := by
  induction trees with
  | nil => exact .refl _
  | cons first rest ih =>
      obtain ⟨former, latter⟩ := List.forall_mem_cons.mp each
      exact former.append (ih latter)

theorem finishedOfFields_perm {entries : List (Field Expr)}
    (each : ∀ entry ∈ entries, entry.initializer.finished.Perm entry.initializer.nodes) :
    (finishedOfFields entries).Perm (nodesOfFields entries) := by
  induction entries with
  | nil => exact .refl _
  | cons first rest ih =>
      obtain ⟨name, initializer, info⟩ := first
      obtain ⟨former, latter⟩ := List.forall_mem_cons.mp each
      have behind := @List.perm_middle _ (Node.field ⟨name, initializer, info⟩)
        (.name name :: initializer.finished) (finishedOfFields rest)
      exact behind.trans (((former.append (ih latter)).cons _).cons _)

/-- Every node is finished once. -/
theorem finished_perm_nodes (tree : Expr) : tree.finished.Perm tree.nodes := by
  have root {nodes nodes' : List Node} {node : Node} (below : nodes.Perm nodes') :
      (nodes ++ [node]).Perm (node :: nodes') :=
    (List.perm_append_singleton node nodes).trans (below.cons node)
  induction tree using induct with
  | number | boolean | null | string | identifier => exact .refl _
  | twoNots operand near far ih => exact root (root ih)
  | unary op operand info single ih => exact root ih
  | binary op left right info former latter => exact root (former.append latter)
  | conditional condition consequent alternative info first second third =>
      exact root ((first.append second).append third)
  | initOf contract arguments info each | call contract arguments info each =>
      exact root ((finishedOfList_perm each).cons _)
  | methodCall receiver method arguments info ih each =>
      exact root (ih.append ((finishedOfList_perm each).cons _))
  | fieldAccess aggregate field info ih =>
      rw [finished, nodes, List.append_cons]
      exact root (ih.append (.refl _))
  | structInstance type fields info each => exact root ((finishedOfFields_perm each).cons _)

end Expr

end ContractExpr
