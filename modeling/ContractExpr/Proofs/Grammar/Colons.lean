import Mathlib.Algebra.GroupWithZero.Nat
import ContractExpr.Proofs.Expr.Written

/-! # Derivations that leave no value out

A tree is written with one colon for each conditional and each field. A derivation has fewer colons
when it leaves out the value of a field, and no more in any case. So a derivation with all the
colons of its tree leaves no value out.
-/

set_option autoImplicit false

namespace ContractExpr

open Token

def colonsIn (kinds : List Kind) : Nat := kinds.count (.symbol .colon)

section ColonsIn

variable {kinds further : List Kind}

@[simp]
theorem colonsIn_nil : colonsIn [] = 0 := rfl

@[simp]
theorem colonsIn_append : colonsIn (kinds ++ further) = colonsIn kinds + colonsIn further :=
  List.count_append

@[simp]
theorem colonsIn_colon : colonsIn (.symbol .colon :: kinds) = colonsIn kinds + 1 :=
  List.count_cons_self

theorem colonsIn_cons {kind : Kind} (other : kind ≠ .symbol .colon) :
    colonsIn (kind :: kinds) = colonsIn kinds :=
  List.count_cons_of_ne other

@[simp]
theorem colonsIn_unary (op : UnaryOp) : colonsIn (.symbol op.symbol :: kinds) = colonsIn kinds :=
  colonsIn_cons (by cases op <;> decide)

@[simp]
theorem colonsIn_binary (op : BinaryOp) : colonsIn (.symbol op.symbol :: kinds) = colonsIn kinds :=
  colonsIn_cons (by cases op <;> decide)

@[simp]
theorem colonsIn_grouped (least strength : Nat) :
    colonsIn (grouped least strength kinds) = colonsIn kinds := by
  unfold grouped
  split
  · simp [colonsIn_cons]
  · rfl

theorem colonsIn_joined (runs : List (List Kind)) :
    colonsIn (Grammar.joined runs) = (runs.map colonsIn).sum := by
  have behind : ∀ runs : List (List Kind),
      colonsIn (runs.flatMap (Kind.symbol .comma :: ·)) = (runs.map colonsIn).sum := by
    intro runs
    induction runs with
    | nil => rfl
    | cons first rest ih => simp [colonsIn_cons, ih]
  cases runs with
  | nil => rfl
  | cons first rest => simp [Grammar.joined, behind]

end ColonsIn

/-- The number of colons a node is written with, those of the nodes below it left out. -/
def Node.colons : Node → Nat
  | .expression (.conditional ..) | .field _ => 1
  | _ => 0

namespace Expr

def colons (expr : Expr) : Nat := (expr.nodes.map Node.colons).sum

theorem colons_list (trees : List Expr) :
    ((nodesOfList trees).map Node.colons).sum = (trees.map colons).sum := by
  induction trees with
  | nil => rfl
  | cons first rest ih =>
      rw [nodesOfList, List.map_append, List.sum_append, ih, List.map_cons, List.sum_cons]
      rfl

theorem colons_fields (entries : List (Field Expr)) :
    ((nodesOfFields entries).map Node.colons).sum =
      (entries.map fun entry => entry.initializer.colons + 1).sum := by
  induction entries with
  | nil => rfl
  | cons first rest ih =>
      obtain ⟨name, initializer, info⟩ := first
      simp only [nodesOfFields, List.map_cons, List.map_append, List.sum_cons, List.sum_append, ih,
        Node.colons, colons]
      omega

section Colons

variable {info : Info}

attribute [local simp] nodes Node.colons

@[simp]
theorem colons_unary {op : UnaryOp} {operand : Expr} :
    (unary op operand info).colons = operand.colons := by
  simp [colons]

@[simp]
theorem colons_binary {op : BinaryOp} {left right : Expr} :
    (binary op left right info).colons = left.colons + right.colons := by
  simp [colons]

@[simp]
theorem colons_conditional {condition consequent alternative : Expr} :
    (conditional condition consequent alternative info).colons =
      condition.colons + consequent.colons + alternative.colons + 1 := by
  simp [colons]
  omega

@[simp]
theorem colons_initOf {contract : Name} {arguments : List Expr} :
    (initOf contract arguments info).colons = (arguments.map colons).sum := by
  simp [colons, colons_list]

@[simp]
theorem colons_methodCall {receiver : Expr} {method : Name} {arguments : List Expr} :
    (methodCall receiver method arguments info).colons =
      receiver.colons + (arguments.map colons).sum := by
  simp [colons, colons_list]

@[simp]
theorem colons_fieldAccess {aggregate : Expr} {field : Name} :
    (fieldAccess aggregate field info).colons = aggregate.colons := by
  simp [colons]

@[simp]
theorem colons_call {function : Name} {arguments : List Expr} :
    (call function arguments info).colons = (arguments.map colons).sum := by
  simp [colons, colons_list]

@[simp]
theorem colons_structInstance {type : Name} {fields : List (Field Expr)} :
    (structInstance type fields info).colons =
      (fields.map fun field => field.initializer.colons + 1).sum := by
  simp [colons, colons_fields]

end Colons

theorem colonsIn_list {trees : List Expr}
    (each : ∀ tree ∈ trees, colonsIn tree.kinds = tree.colons) :
    colonsIn (Grammar.joined (kindsOfList trees)) = (trees.map colons).sum := by
  rw [colonsIn_joined, kindsOfList_eq, List.map_map]
  exact congrArg List.sum (List.map_congr_left each)

theorem colonsIn_fields {entries : List (Field Expr)}
    (each : ∀ entry ∈ entries, colonsIn entry.initializer.kinds = entry.initializer.colons) :
    colonsIn (Grammar.joined (kindsOfFields entries)) =
      (entries.map fun entry => entry.initializer.colons + 1).sum := by
  rw [colonsIn_joined, kindsOfFields_eq, List.map_map]
  apply congrArg List.sum
  apply List.map_congr_left
  intro entry member
  simp [colonsIn_cons, each entry member]

theorem colonsIn_kinds (tree : Expr) : colonsIn tree.kinds = tree.colons := by
  induction tree using Expr.induct with
  | number | boolean | null | string | identifier => rfl
  | twoNots operand near far ih => simp [kinds, colonsIn_cons, ih]
  | unary op operand info single ih =>
      rw [kinds_unary single]
      split
      · simp [ih]
      · simp [ih]
  | binary op left right info former latter => simp [kinds, former, latter]
  | conditional condition consequent alternative info first second third =>
      simp [kinds, colonsIn_cons, first, second, third]
      omega
  | initOf contract arguments info ih => simp [kinds, colonsIn_cons, colonsIn_list ih]
  | methodCall receiver method arguments info ih each =>
      simp [kinds, colonsIn_cons, ih, colonsIn_list each]
  | fieldAccess aggregate field info ih => simp [kinds, colonsIn_cons, ih]
  | call function arguments info ih => simp [kinds, colonsIn_cons, colonsIn_list ih]
  | structInstance type fields info ih => simp [kinds, colonsIn_cons, colonsIn_fields ih]

end Expr

namespace Grammar

def Phrase.colons : Phrase → Nat
  | .expression tree | .chain _ tree | .signed tree | .suffixed tree | .primary tree => tree.colons
  | .arguments trees => (trees.map Expr.colons).sum
  | .field entry => entry.initializer.colons + 1
  | .fields entries => (entries.map fun entry => entry.initializer.colons + 1).sum

theorem colonsIn_listing {runs : List (List Kind)} {kinds : List Kind}
    (listed : Listing runs kinds) : colonsIn kinds = (runs.map colonsIn).sum := by
  cases listed with
  | plain => exact colonsIn_joined runs
  | trailing nonempty => simp [colonsIn_cons, colonsIn_joined]

/-- Two sums that agree term by term at most agree only if all terms do. -/
theorem sum_eq_iff_of_le {α : Type} {few many : α → Nat} {values : List α}
    (le : ∀ value ∈ values, few value ≤ many value) :
    (values.map few).sum ≤ (values.map many).sum ∧
      ((values.map few).sum = (values.map many).sum →
        ∀ value ∈ values, few value = many value) := by
  induction values with
  | nil => simp
  | cons first rest ih =>
      obtain ⟨firstLe, restLe⟩ := List.forall_mem_cons.mp le
      obtain ⟨sumLe, equal⟩ := ih restLe
      simp only [List.map_cons, List.sum_cons]
      constructor
      · omega
      · intro all
        exact List.forall_mem_cons.mpr ⟨by omega, equal (by omega)⟩

/-- A derivation has no more colons than its phrase, and with as many it leaves no value out. -/
structure Counted (left : Nat) (phrase : Phrase) (kinds : List Kind) : Prop where
  le : colonsIn kinds ≤ phrase.colons
  strict : colonsIn kinds = phrase.colons → Derives false left phrase kinds

theorem counted_entries {α : Type} {left : Nat} {single : α → Phrase}
    {entries : List (α × List Kind)} {kinds : List Kind}
    (each : ∀ entry ∈ entries, Counted left (single entry.1) entry.2)
    (listed : Listing (entries.map Prod.snd) kinds) :
    colonsIn kinds ≤ ((entries.map Prod.fst).map fun value => (single value).colons).sum ∧
      (colonsIn kinds = ((entries.map Prod.fst).map fun value => (single value).colons).sum →
        ∀ entry ∈ entries, Derives false left (single entry.1) entry.2) := by
  have sums := sum_eq_iff_of_le fun entry member => (each entry member).le
  rw [colonsIn_listing listed, List.map_map, List.map_map]
  exact ⟨sums.1, fun all entry member => (each entry member).strict (sums.2 all entry member)⟩

namespace Counted

variable {left left' left'' : Nat} {phrase phrase' phrase'' : Phrase}
  {kinds kinds' kinds'' : List Kind}

theorem one (inner : Counted left phrase kinds) (own : Nat)
    (build : Derives false left phrase kinds → Derives false left' phrase' kinds')
    (written : colonsIn kinds' = colonsIn kinds + own)
    (needed : phrase'.colons = phrase.colons + own) : Counted left' phrase' kinds' where
  le := by
    have bound := inner.le
    omega
  strict all := build (inner.strict (by omega))

theorem two (former : Counted left phrase kinds) (latter : Counted left' phrase' kinds')
    (build : Derives false left phrase kinds → Derives false left' phrase' kinds' →
      Derives false left'' phrase'' kinds'')
    (written : colonsIn kinds'' = colonsIn kinds + colonsIn kinds')
    (needed : phrase''.colons = phrase.colons + phrase'.colons) :
    Counted left'' phrase'' kinds'' where
  le := by
    have bound := former.le
    have bound' := latter.le
    omega
  strict all := by
    have bound := former.le
    have bound' := latter.le
    exact build (former.strict (by omega)) (latter.strict (by omega))

end Counted

theorem Derives.counted {brief : Bool} {left : Nat} {phrase : Phrase} {kinds : List Kind}
    (derived : Derives brief left phrase kinds) : Counted left phrase kinds := by
  induction derived with
  | unconditional _ ih => exact ih.one 0 .unconditional rfl rfl
  | conditional info _ _ _ first second third =>
      have bound := first.le
      have bound' := second.le
      have bound'' := third.le
      simp only [Phrase.colons] at bound bound' bound''
      constructor
      · simp [Phrase.colons, colonsIn_cons]
        omega
      · intro all
        simp [Phrase.colons, colonsIn_cons] at all
        exact .conditional info (first.strict (by simp only [Phrase.colons]; omega))
          (second.strict (by simp only [Phrase.colons]; omega))
          (third.strict (by simp only [Phrase.colons]; omega))
  | tighter below _ ih => exact ih.one 0 (.tighter below) rfl rfl
  | binary op info _ _ former latter =>
      exact former.two latter (.binary op info) (by simp) (by simp [Phrase.colons])
  | operand _ ih => exact ih.one 0 .operand rfl rfl
  | sign op info leads _ ih =>
      exact ih.one 0 (.sign op info leads) (by simp) (by simp [Phrase.colons])
  | doubleNot near far _ ih =>
      exact ih.one 0 (.doubleNot near far) (by simp [colonsIn_cons]) (by simp [Phrase.colons])
  | unsigned _ ih => exact ih.one 0 .unsigned rfl rfl
  | unsuffixed _ ih => exact ih.one 0 .unsuffixed rfl rfl
  | notNull info _ ih =>
      exact ih.one 0 (.notNull info) (by simp [colonsIn_cons]) (by simp [Phrase.colons])
  | fieldAccess field info _ ih =>
      exact ih.one 0 (.fieldAccess field info) (by simp [colonsIn_cons]) (by simp [Phrase.colons])
  | methodCall method info _ _ ih given =>
      exact ih.two given (.methodCall method info) (by simp [colonsIn_cons])
        (by simp [Phrase.colons])
  | number info read => exact ⟨Nat.le_refl _, fun _ => .number info read⟩
  | boolean value info => exact ⟨Nat.le_refl _, fun _ => .boolean value info⟩
  | null info => exact ⟨Nat.le_refl _, fun _ => .null info⟩
  | string content info => exact ⟨Nat.le_refl _, fun _ => .string content info⟩
  | identifier name info => exact ⟨Nat.le_refl _, fun _ => .identifier name info⟩
  | call function info _ given =>
      exact given.one 0 (.call function info) (by simp [colonsIn_cons]) (by simp [Phrase.colons])
  | structInstance type info _ given =>
      exact given.one 0 (.structInstance type info) (by simp [colonsIn_cons])
        (by simp [Phrase.colons])
  | initOf contract info _ given =>
      exact given.one 0 (.initOf contract info) (by simp [colonsIn_cons]) (by simp [Phrase.colons])
  | group _ ih => exact ih.one 0 .group (by simp [colonsIn_cons]) rfl
  | @arguments left kinds entries _ listed ih =>
      obtain ⟨le, strict⟩ := counted_entries ih listed
      have inner : colonsIn (.symbol .leftParen :: (kinds ++ [.symbol .rightParen])) =
          colonsIn kinds := by
        simp [colonsIn_cons]
      constructor
      · rw [inner]
        exact le
      · intro all
        rw [inner] at all
        exact .arguments entries (strict all) listed
  | briefField _ name valueInfo info =>
      constructor
      · exact Nat.zero_le _
      · intro all
        have impossible : 0 = (Expr.identifier name.text valueInfo).colons + 1 := all
        omega
  | field name info _ ih => exact ih.one 1 (.field name info) (by simp [colonsIn_cons]) rfl
  | @fields left kinds entries _ listed ih =>
      obtain ⟨le, strict⟩ := counted_entries ih listed
      have inner : colonsIn (.symbol .leftBrace :: (kinds ++ [.symbol .rightBrace])) =
          colonsIn kinds := by
        simp [colonsIn_cons]
      constructor
      · rw [inner]
        exact le
      · intro all
        rw [inner] at all
        exact .fields entries (strict all) listed

/-- No value is left out in a derivation of a tree from its own tokens. -/
theorem Derives.strict_of_kinds {brief : Bool} {left : Nat} {tree : Expr}
    (derived : Derives brief left (.expression tree) tree.kinds) :
    Derives false left (.expression tree) tree.kinds :=
  derived.counted.strict tree.colonsIn_kinds

theorem colonsIn_entries {α : Type} {single : α → Phrase} {entries : List (α × List Kind)}
    {kinds : List Kind} (each : ∀ entry ∈ entries, colonsIn entry.2 = (single entry.1).colons)
    (listed : Listing (entries.map Prod.snd) kinds) :
    colonsIn kinds = ((entries.map Prod.fst).map fun value => (single value).colons).sum := by
  rw [colonsIn_listing listed, List.map_map, List.map_map]
  exact congrArg List.sum (List.map_congr_left each)

/-- A derivation that leaves no value out has all the colons of its phrase. -/
theorem Derives.colonsIn_eq {left : Nat} {phrase : Phrase} {kinds : List Kind}
    (derived : Derives false left phrase kinds) : colonsIn kinds = phrase.colons := by
  induction derived with
  | unconditional _ ih | tighter _ _ ih | operand _ ih | unsigned _ ih | unsuffixed _ ih => exact ih
  | conditional _ _ _ _ first second third =>
      simp [colonsIn_cons, first, second, third, Phrase.colons]
      omega
  | binary _ _ _ _ former latter => simp [former, latter, Phrase.colons]
  | sign _ _ _ _ ih | doubleNot _ _ _ ih | notNull _ _ ih | fieldAccess _ _ _ ih
  | call _ _ _ ih | structInstance _ _ _ ih | initOf _ _ _ ih | group _ ih | field _ _ _ ih =>
      simp [colonsIn_cons, ih, Phrase.colons]
  | methodCall _ _ _ _ ih given => simp [colonsIn_cons, ih, given, Phrase.colons]
  | number | boolean | null | string | identifier => rfl
  | briefField allowed => cases allowed
  | arguments _ _ listed ih | fields _ _ listed ih =>
      simp [colonsIn_cons, colonsIn_entries ih listed, Phrase.colons]

end Grammar

end ContractExpr
