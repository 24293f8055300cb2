import ContractExpr.Expr.Node
import ContractExpr.Proofs.Expr.Induction
import ContractExpr.Proofs.Text.CharClass
import ContractExpr.Sampling.Generator

/-! # What a generator promises of its trees

The level of a tree is the least level that can hold it, and a tree keeps the promise of a generator
when each of its nodes does: nothing was read from a source, no name stands alone, lists and numbers
are not too long, and names and string literals are of one simple form.
-/

set_option autoImplicit false

namespace ContractExpr.Generator

/-! ## Levels -/

mutual

/-- One for a leaf; one more than the greatest level below, or two if nothing is below. -/
def levelOf : Expr → Nat
  | .number .. | .boolean .. | .null .. | .string .. | .identifier .. => 1
  | .unary _ operand _ => 1 + max 1 (levelOf operand)
  | .binary _ left right _ => 1 + max 1 (max (levelOf left) (levelOf right))
  | .conditional condition consequent alternative _ =>
    1 + max 1 (max (max (levelOf condition) (levelOf consequent)) (levelOf alternative))
  | .initOf _ arguments _ => 1 + max 1 (levelOfList arguments)
  | .methodCall receiver _ arguments _ =>
    1 + max 1 (max (levelOf receiver) (levelOfList arguments))
  | .fieldAccess aggregate _ _ => 1 + max 1 (levelOf aggregate)
  | .call _ arguments _ => 1 + max 1 (levelOfList arguments)
  | .structInstance _ fields _ => 1 + max 1 (levelOfFields fields)

def levelOfList : List Expr → Nat
  | [] => 0
  | first :: rest => max (levelOf first) (levelOfList rest)

def levelOfFields : List (Field Expr) → Nat
  | [] => 0
  | ⟨_, initializer, _⟩ :: rest => max (levelOf initializer) (levelOfFields rest)

end

theorem levelOfList_le {trees : List Expr} {bound : Nat} :
    levelOfList trees ≤ bound ↔ ∀ tree ∈ trees, levelOf tree ≤ bound := by
  induction trees with
  | nil => simp [levelOfList]
  | cons first rest ih => rw [levelOfList, Nat.max_le, ih, List.forall_mem_cons]

theorem levelOfFields_le {entries : List (Field Expr)} {bound : Nat} :
    levelOfFields entries ≤ bound ↔ ∀ entry ∈ entries, levelOf entry.initializer ≤ bound := by
  induction entries with
  | nil => simp [levelOfFields]
  | cons first rest ih => rw [levelOfFields, Nat.max_le, ih, List.forall_mem_cons]

theorem depthOfList_le_of_each {trees : List Expr}
    (each : ∀ tree ∈ trees, tree.depth ≤ levelOf tree) :
    Expr.depthOfList trees ≤ levelOfList trees := by
  induction trees with
  | nil => exact Nat.le_refl _
  | cons first rest ih =>
      obtain ⟨front, others⟩ := List.forall_mem_cons.mp each
      have behind := ih others
      simp only [Expr.depthOfList, levelOfList]
      omega

theorem depthOfFields_le_of_each {entries : List (Field Expr)}
    (each : ∀ entry ∈ entries, entry.initializer.depth ≤ levelOf entry.initializer) :
    Expr.depthOfFields entries ≤ levelOfFields entries := by
  induction entries with
  | nil => exact Nat.le_refl _
  | cons first rest ih =>
      obtain ⟨front, others⟩ := List.forall_mem_cons.mp each
      have behind := ih others
      simp only [Expr.depthOfFields, levelOfFields]
      omega

/-- A tree is no deeper than its level. -/
theorem depth_le_levelOf (tree : Expr) : tree.depth ≤ levelOf tree := by
  induction tree using Expr.induct with
  | number | boolean | null | string | identifier => exact Nat.le_refl _
  | twoNots | unary | binary | conditional | fieldAccess =>
      simp only [Expr.depth, levelOf]
      omega
  | initOf _ _ _ given | methodCall _ _ _ _ _ given | call _ _ _ given =>
      have inside := depthOfList_le_of_each given
      simp only [Expr.depth, levelOf]
      omega
  | structInstance _ _ _ given =>
      have inside := depthOfFields_le_of_each given
      simp only [Expr.depth, levelOf]
      omega

theorem levelOf_le_one {tree : Expr} (low : levelOf tree ≤ 1) :
    tree.isLiteral = true ∨ ∃ name info, tree = .identifier name info := by
  cases tree with
  | number | boolean | null | string => exact Or.inl rfl
  | identifier name info => exact Or.inr ⟨name, info, rfl⟩
  | _ =>
      simp only [levelOf] at low
      omega

/-! ## Promises -/

/-- The texts of the pattern `[A-Z][A-Za-z0-9_]{0,15}`. -/
def FitsPattern (text : String) : Prop :=
  ∃ first rest, text.toList = first :: rest ∧ ('A' ≤ first ∧ first ≤ 'Z') ∧ rest.length ≤ 15 ∧
    ∀ c ∈ rest, 'A' ≤ c ∧ c ≤ 'Z' ∨ 'a' ≤ c ∧ c ≤ 'z' ∨ '0' ≤ c ∧ c ≤ '9' ∨ c = '_'

def KeepsText (text : String) : Prop := FitsPattern text ∧ isReserved text = false

def KeepsName (given : Name) : Prop := given.info = Info.built ∧ KeepsText given.text

def KeepsNode (settings : Settings) : Node → Prop
  | .name given => KeepsName given
  | .field entry => entry.info = Info.built
  | .expression expr =>
    expr.info = Info.built ∧
      match expr with
      | .number value _ => value.digits.length ≤ max settings.maxDigits 1
      | .string content _ => KeepsText content
      | .identifier .. => False
      | .initOf _ arguments _ | .methodCall _ _ arguments _ | .call _ arguments _ =>
        arguments.length ≤ settings.maxArguments
      | .structInstance _ fields _ => fields.length ≤ settings.maxArguments
      | _ => True

def Keeps (settings : Settings) (tree : Expr) : Prop := ∀ node ∈ tree.nodes, KeepsNode settings node

theorem isUpper_iff_between {c : Char} : c.isUpper = true ↔ 'A' ≤ c ∧ c ≤ 'Z' :=
  Text.isUpper_iff c

theorem isNamePart_iff_between {c : Char} :
    Text.isNamePart c = true ↔
      'A' ≤ c ∧ c ≤ 'Z' ∨ 'a' ≤ c ∧ c ≤ 'z' ∨ '0' ≤ c ∧ c ≤ '9' ∨ c = '_' := by
  simp only [Text.isNamePart_iff, Char.le_def, UInt32.le_iff_toNat_le, Char.toNat_val,
    ← Char.toNat_inj, Char.reduceToNat]
  omega

theorem fitsPattern_iff {text : String} :
    FitsPattern text ↔
      ∃ first rest, text.toList = first :: rest ∧ first.isUpper = true ∧ rest.length ≤ 15 ∧
        ∀ c ∈ rest, Text.isNamePart c = true := by
  simp only [FitsPattern, isUpper_iff_between, isNamePart_iff_between]

/-- No reserved word begins with a capital letter, so the filter on names rejects nothing. -/
theorem isReserved_of_isUpper {text : String} {first : Char} {rest : List Char}
    (chars : text.toList = first :: rest) (upper : first.isUpper = true) :
    isReserved text = false := by
  have small : ∀ word ∈ "true" :: "false" :: reservedWords,
      word.toList.head?.all (!·.isUpper) = true := by decide
  rw [Bool.eq_false_iff]
  intro reserved
  have member : text ∈ "true" :: "false" :: reservedWords := by
    simpa [isReserved, or_assoc] using reserved
  simpa [chars, upper] using small _ member

theorem keepsText_iff {text : String} : KeepsText text ↔ FitsPattern text := by
  refine ⟨And.left, fun fits => ⟨fits, ?_⟩⟩
  obtain ⟨first, rest, chars, upper, -, -⟩ := fitsPattern_iff.mp fits
  exact isReserved_of_isUpper chars upper

section Keeps

variable {settings : Settings} {info : Info}

theorem keeps_list {trees : List Expr} :
    (∀ node ∈ Expr.nodesOfList trees, KeepsNode settings node) ↔
      ∀ tree ∈ trees, Keeps settings tree := by
  induction trees with
  | nil => simp [Expr.nodesOfList]
  | cons first rest ih =>
      rw [Expr.nodesOfList, List.forall_mem_append, ih, List.forall_mem_cons, Keeps]

def KeepsField (settings : Settings) (entry : Field Expr) : Prop :=
  entry.info = Info.built ∧ KeepsName entry.name ∧ Keeps settings entry.initializer

theorem keeps_fields {entries : List (Field Expr)} :
    (∀ node ∈ Expr.nodesOfFields entries, KeepsNode settings node) ↔
      ∀ entry ∈ entries, KeepsField settings entry := by
  induction entries with
  | nil => simp [Expr.nodesOfFields]
  | cons first rest ih =>
      rw [Expr.nodesOfFields, List.forall_mem_cons, List.forall_mem_cons, List.forall_mem_append,
        ih, List.forall_mem_cons, KeepsField, Keeps]
      simp only [KeepsNode, and_assoc]

attribute [local simp] Keeps Expr.nodes KeepsNode Expr.info or_imp forall_and and_assoc

@[simp]
theorem keeps_number {value : Number} :
    Keeps settings (.number value info) ↔
      info = Info.built ∧ value.digits.length ≤ max settings.maxDigits 1 := by
  simp

@[simp]
theorem keeps_boolean {value : Bool} : Keeps settings (.boolean value info) ↔ info = Info.built := by
  simp

@[simp]
theorem keeps_null : Keeps settings (.null info) ↔ info = Info.built := by
  simp

@[simp]
theorem keeps_string {content : String} :
    Keeps settings (.string content info) ↔ info = Info.built ∧ KeepsText content := by
  simp

@[simp]
theorem keeps_identifier {name : String} : ¬Keeps settings (.identifier name info) := by
  simp

@[simp]
theorem keeps_unary {op : UnaryOp} {operand : Expr} :
    Keeps settings (.unary op operand info) ↔ info = Info.built ∧ Keeps settings operand := by
  simp

@[simp]
theorem keeps_binary {op : BinaryOp} {left right : Expr} :
    Keeps settings (.binary op left right info) ↔
      info = Info.built ∧ Keeps settings left ∧ Keeps settings right := by
  simp

@[simp]
theorem keeps_conditional {condition consequent alternative : Expr} :
    Keeps settings (.conditional condition consequent alternative info) ↔
      info = Info.built ∧ Keeps settings condition ∧ Keeps settings consequent ∧
        Keeps settings alternative := by
  simp

@[simp]
theorem keeps_initOf {contract : Name} {arguments : List Expr} :
    Keeps settings (.initOf contract arguments info) ↔
      info = Info.built ∧ arguments.length ≤ settings.maxArguments ∧ KeepsName contract ∧
        ∀ argument ∈ arguments, Keeps settings argument := by
  rw [← keeps_list]
  simp

@[simp]
theorem keeps_methodCall {receiver : Expr} {method : Name} {arguments : List Expr} :
    Keeps settings (.methodCall receiver method arguments info) ↔
      info = Info.built ∧ arguments.length ≤ settings.maxArguments ∧ Keeps settings receiver ∧
        KeepsName method ∧ ∀ argument ∈ arguments, Keeps settings argument := by
  rw [← keeps_list]
  simp

@[simp]
theorem keeps_fieldAccess {aggregate : Expr} {field : Name} :
    Keeps settings (.fieldAccess aggregate field info) ↔
      info = Info.built ∧ Keeps settings aggregate ∧ KeepsName field := by
  simp

@[simp]
theorem keeps_call {function : Name} {arguments : List Expr} :
    Keeps settings (.call function arguments info) ↔
      info = Info.built ∧ arguments.length ≤ settings.maxArguments ∧ KeepsName function ∧
        ∀ argument ∈ arguments, Keeps settings argument := by
  rw [← keeps_list]
  simp

@[simp]
theorem keeps_structInstance {type : Name} {fields : List (Field Expr)} :
    Keeps settings (.structInstance type fields info) ↔
      info = Info.built ∧ fields.length ≤ settings.maxArguments ∧ KeepsName type ∧
        ∀ field ∈ fields, KeepsField settings field := by
  rw [← keeps_fields]
  simp

end Keeps

end ContractExpr.Generator
