import ContractExpr.Proofs.Expr.Induction
import ContractExpr.Proofs.Grammar.Relabel
import ContractExpr.Proofs.Token.Kinds

/-! # The names in a tree

A tree is well named when each of its names can be read as a name. A tree that the tokens of a text
stand for is well named, because each of its names is one of the tokens.
-/

set_option autoImplicit false

namespace ContractExpr

open Token

/-- The name that a node gives, if any: an identifier, or a name in a fixed place. -/
def Node.words : Node → List String
  | .expression (.identifier word _) => [word]
  | .name given => [given.text]
  | _ => []

namespace Expr

def words (expr : Expr) : List String := expr.nodes.flatMap Node.words

/-- Every name in the tree can be read as a name. -/
def WellNamed (expr : Expr) : Prop := ∀ word ∈ expr.words, UsableName word

theorem words_list (trees : List Expr) :
    (nodesOfList trees).flatMap Node.words = trees.flatMap words := by
  induction trees with
  | nil => rfl
  | cons first rest ih =>
      rw [nodesOfList, List.flatMap_append, ih, List.flatMap_cons]
      rfl

theorem words_fields (entries : List (Field Expr)) :
    (nodesOfFields entries).flatMap Node.words =
      entries.flatMap fun entry => entry.name.text :: entry.initializer.words := by
  induction entries with
  | nil => rfl
  | cons first rest ih =>
      obtain ⟨name, initializer, info⟩ := first
      rw [nodesOfFields, List.flatMap_cons, List.flatMap_cons, List.flatMap_append, ih]
      rfl

section Words

variable {info : Info}

attribute [local simp] nodes Node.words

@[simp]
theorem words_number {value : Number} : (number value info).words = [] := rfl

@[simp]
theorem words_boolean {value : Bool} : (boolean value info).words = [] := rfl

@[simp]
theorem words_null : (null info).words = [] := rfl

@[simp]
theorem words_string {content : String} : (string content info).words = [] := rfl

@[simp]
theorem words_identifier {name : String} : (identifier name info).words = [name] := rfl

@[simp]
theorem words_unary {op : UnaryOp} {operand : Expr} :
    (unary op operand info).words = operand.words := rfl

@[simp]
theorem words_binary {op : BinaryOp} {left right : Expr} :
    (binary op left right info).words = left.words ++ right.words := by
  simp [words]

@[simp]
theorem words_conditional {condition consequent alternative : Expr} :
    (conditional condition consequent alternative info).words =
      condition.words ++ consequent.words ++ alternative.words := by
  simp [words]

@[simp]
theorem words_initOf {contract : Name} {arguments : List Expr} :
    (initOf contract arguments info).words = contract.text :: arguments.flatMap words := by
  simp [words, words_list]

@[simp]
theorem words_methodCall {receiver : Expr} {method : Name} {arguments : List Expr} :
    (methodCall receiver method arguments info).words =
      receiver.words ++ method.text :: arguments.flatMap words := by
  simp [words, words_list]

@[simp]
theorem words_fieldAccess {aggregate : Expr} {field : Name} :
    (fieldAccess aggregate field info).words = aggregate.words ++ [field.text] := by
  simp [words]

@[simp]
theorem words_call {function : Name} {arguments : List Expr} :
    (call function arguments info).words = function.text :: arguments.flatMap words := by
  simp [words, words_list]

@[simp]
theorem words_structInstance {type : Name} {fields : List (Field Expr)} :
    (structInstance type fields info).words =
      type.text :: fields.flatMap fun field => field.name.text :: field.initializer.words := by
  simp [words, words_fields]

end Words

section WellNamed

variable {info : Info}

theorem wellNamed_identifier {name : String} :
    (identifier name info).WellNamed ↔ UsableName name := by
  simp [WellNamed]

theorem wellNamed_unary {op : UnaryOp} {operand : Expr} :
    (unary op operand info).WellNamed ↔ operand.WellNamed := by
  simp [WellNamed]

theorem wellNamed_binary {op : BinaryOp} {left right : Expr} :
    (binary op left right info).WellNamed ↔ left.WellNamed ∧ right.WellNamed := by
  simp [WellNamed, or_imp, forall_and]

theorem wellNamed_conditional {condition consequent alternative : Expr} :
    (conditional condition consequent alternative info).WellNamed ↔
      condition.WellNamed ∧ consequent.WellNamed ∧ alternative.WellNamed := by
  simp [WellNamed, or_imp, forall_and]

theorem forall_words {α : Type} {words : α → List String} {values : List α} :
    (∀ word ∈ values.flatMap words, UsableName word) ↔
      ∀ value ∈ values, ∀ word ∈ words value, UsableName word := by
  simp only [List.mem_flatMap]
  exact ⟨fun all value inValues word inWords => all word ⟨value, inValues, inWords⟩,
    fun all word ⟨value, inValues, inWords⟩ => all value inValues word inWords⟩

theorem wellNamed_initOf {contract : Name} {arguments : List Expr} :
    (initOf contract arguments info).WellNamed ↔
      UsableName contract.text ∧ ∀ argument ∈ arguments, argument.WellNamed := by
  rw [WellNamed, words_initOf, List.forall_mem_cons, forall_words]
  rfl

theorem wellNamed_methodCall {receiver : Expr} {method : Name} {arguments : List Expr} :
    (methodCall receiver method arguments info).WellNamed ↔
      receiver.WellNamed ∧ UsableName method.text ∧
        ∀ argument ∈ arguments, argument.WellNamed := by
  rw [WellNamed, words_methodCall, List.forall_mem_append, List.forall_mem_cons, forall_words]
  rfl

theorem wellNamed_fieldAccess {aggregate : Expr} {field : Name} :
    (fieldAccess aggregate field info).WellNamed ↔
      aggregate.WellNamed ∧ UsableName field.text := by
  simp [WellNamed, or_imp, forall_and]

theorem wellNamed_call {function : Name} {arguments : List Expr} :
    (call function arguments info).WellNamed ↔
      UsableName function.text ∧ ∀ argument ∈ arguments, argument.WellNamed := by
  rw [WellNamed, words_call, List.forall_mem_cons, forall_words]
  rfl

theorem wellNamed_structInstance {type : Name} {fields : List (Field Expr)} :
    (structInstance type fields info).WellNamed ↔
      UsableName type.text ∧
        ∀ field ∈ fields, UsableName field.name.text ∧ field.initializer.WellNamed := by
  rw [WellNamed, words_structInstance, List.forall_mem_cons, forall_words]
  simp only [List.forall_mem_cons]
  rfl

end WellNamed

end Expr

namespace Grammar

def Phrase.words : Phrase → List String
  | .expression tree | .chain _ tree | .signed tree | .suffixed tree | .primary tree => tree.words
  | .arguments trees => trees.flatMap Expr.words
  | .field entry => entry.name.text :: entry.initializer.words
  | .fields entries => entries.flatMap fun entry => entry.name.text :: entry.initializer.words

theorem words_entries {α : Type} {words : α → List String} {entries : List (α × List Kind)}
    {kinds : List Kind} (listed : Listing (entries.map Prod.snd) kinds)
    (each : ∀ entry ∈ entries, ∀ word ∈ words entry.1, .name word ∈ entry.2) :
    ∀ word ∈ (entries.map Prod.fst).flatMap words, .name word ∈ kinds := by
  intro word member
  obtain ⟨value, inValues, inWords⟩ := List.mem_flatMap.mp member
  obtain ⟨entry, inEntries, rfl⟩ := List.mem_map.mp inValues
  exact listed.mem_of_mem inEntries (each entry inEntries word inWords)

theorem Derives.mem_of_word {brief : Bool} {left : Nat} {phrase : Phrase} {kinds : List Kind}
    (derived : Derives brief left phrase kinds) : ∀ word ∈ phrase.words, .name word ∈ kinds := by
  induction derived with
  | unconditional _ ih | tighter _ _ ih | operand _ ih | unsigned _ ih | unsuffixed _ ih => exact ih
  | number | boolean | null | string | identifier | briefField => simp [Phrase.words]
  | sign _ _ _ _ ih | doubleNot _ _ _ ih | notNull _ _ ih | group _ ih | fieldAccess _ _ _ ih
  | call _ _ _ ih | structInstance _ _ _ ih | initOf _ _ _ ih | field _ _ _ ih =>
      intro word member
      have inside := ih word
      simp only [Phrase.words, Expr.words_unary, Expr.words_fieldAccess, Expr.words_call,
        Expr.words_structInstance, Expr.words_initOf] at member inside
      grind
  | binary _ _ _ _ former latter | methodCall _ _ _ _ former latter =>
      intro word member
      have inFormer := former word
      have inLatter := latter word
      simp only [Phrase.words, Expr.words_binary, Expr.words_methodCall]
        at member inFormer inLatter
      grind
  | conditional _ _ _ _ first second third =>
      intro word member
      have inFirst := first word
      have inSecond := second word
      have inThird := third word
      simp only [Phrase.words, Expr.words_conditional] at member inFirst inSecond inThird
      grind
  | arguments entries _ listed ih =>
      intro word member
      have inside := words_entries listed ih word member
      simp [inside]
  | fields entries _ listed ih =>
      intro word member
      have inside := words_entries listed ih word member
      simp [inside]

/-- A tree that the tokens of a text stand for is well named. -/
theorem Derives.wellNamed {brief : Bool} {left : Nat} {tree : Expr} {text : List Char}
    {kinds : List Kind} (derived : Derives brief left (.expression tree) kinds)
    (read : kinds ⊆ kindsOf text) : tree.WellNamed := by
  intro word member
  exact usableName_of_mem (read (derived.mem_of_word word member))

end Grammar

end ContractExpr
