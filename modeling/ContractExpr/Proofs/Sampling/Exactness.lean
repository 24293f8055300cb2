import ContractExpr.Proofs.Number.Canonical
import ContractExpr.Proofs.Sampling.Laws
import ContractExpr.Proofs.Sampling.Support
import Mathlib.Data.List.Basic
import Mathlib.Tactic.Tauto

/-! # Which trees a generator gives

The trees of a level are all the trees that keep the generator's promise and whose own level is no
greater. What each strategy gives follows from what its parts give, by the laws of the library, and
the levels are tied together by induction.
-/

set_option autoImplicit false

namespace ContractExpr

/-! ## Digits -/

namespace Base

theorem filterMap_charOf? {base : Base} {values : List Nat}
    (small : ∀ value ∈ values, value < base.radix) :
    values.filterMap base.charOf? = values.map Nat.digitChar := by
  induction values with
  | nil => rfl
  | cons first rest ih =>
      obtain ⟨front, others⟩ := List.forall_mem_cons.mp small
      have written : base.charOf? first = some first.digitChar := if_pos front
      rw [List.filterMap_cons_some written, ih others, List.map_cons]

theorem length_canonical_le {text : List Char} (nonempty : text ≠ []) :
    (canonical text).length ≤ text.length := by
  unfold canonical
  split
  · exact List.length_pos_iff.mpr nonempty
  · rw [List.length_map]
    exact (List.dropWhile_sublist _).length_le

theorem exists_values (base : Base) (value : Nat) :
    ∃ values : List Nat, (∀ value ∈ values, value < base.radix) ∧
      values.map Nat.digitChar = base.digits value := by
  have digits := (valueFrom?_eq_some.mp (base.valueFrom?_digits value)).1
  have written : canonical (base.digits value) = base.digits value := by
    rw [← digits_denoted digits, denoted_digits]
  have lower : ∀ base ∈ Base.all, (alphabet base).all (fun c => c.toLower = c) = true := by decide
  refine ⟨(base.digits value).map base.weight, ?_, ?_⟩
  · intro weight member
    obtain ⟨c, inDigits, rfl⟩ := List.mem_map.mp member
    exact (digitChar_weight (digits c inDigits)).1
  · rw [List.map_map]
    refine (List.map_congr_left fun c inDigits => ?_).trans (List.map_id _)
    have inAlphabet := mem_alphabet_of_mem_canonical digits c (written.symm ▸ inDigits)
    have same := of_decide_eq_true (List.all_eq_true.mp (lower base base.mem_all) c inAlphabet)
    exact (digitChar_weight (digits c inDigits)).2.trans same

end Base

/-! ## Operators -/

theorem UnaryOp.mem_all (op : UnaryOp) : op ∈ UnaryOp.all := by
  cases op <;> decide

theorem BinaryOp.mem_all (op : BinaryOp) : op ∈ BinaryOp.all := by
  cases op <;> decide

namespace Generator

open Strategy LawfulStrategy

section Lawful

variable {S : Type → Type} [Strategy S] [LawfulStrategy S] {settings : Settings}

/-! ## Names and literals -/

/-- The library takes the pattern, and then exactly the promised texts are given. -/
theorem exists_text : ∃ given : S String, text = .ok given ∧
    ∀ content, CanGive given content ↔ KeepsText content := by
  obtain ⟨fitting, taken, fits⟩ := canGive_regex (S := S)
  refine ⟨filter "reserved word" (fun word => !isReserved word) fitting, by
    rw [text, namePattern, taken], ?_⟩
  intro content
  rw [canGive_filter, fits, KeepsText, Bool.not_eq_true']

/-- Numbers are read from their digits as literals of a source are. -/
theorem canGive_number {tree : Expr} :
    CanGive (number settings : S Expr) tree ↔
      ∃ value, tree = .number value Info.built ∧ Keeps settings tree := by
  simp only [number, canGive_map, canGive_flatMap, canGive_select, canGive_filterMap,
    canGive_listOf, canGive_below]
  constructor
  · rintro ⟨value, ⟨base, -, digits, ⟨⟨nonempty, short⟩, small⟩, read⟩, rfl⟩
    refine ⟨value, rfl, keeps_number.mpr ⟨rfl, ?_⟩⟩
    rw [Base.filterMap_charOf? small] at read
    obtain ⟨written, each, rfl⟩ := Number.ofDigits?_eq_some.mp read
    calc (Number.digits ⟨base, base.denoted (digits.map Nat.digitChar)⟩).length
        = (Base.canonical (digits.map Nat.digitChar)).length :=
          congrArg List.length (Base.digits_denoted each)
      _ ≤ (digits.map Nat.digitChar).length := Base.length_canonical_le written
      _ ≤ max settings.maxDigits 1 := by rwa [List.length_map]
  · rintro ⟨value, rfl, kept⟩
    obtain ⟨digits, small, written⟩ := value.base.exists_values value.value
    have long : digits.length = value.digits.length := by
      rw [Number.digits, ← written, List.length_map]
    have nonempty : 0 < value.digits.length :=
      List.length_pos_iff.mpr (value.base.digits_ne_nil value.value)
    refine ⟨value, ⟨value.base, value.base.mem_all, digits, ⟨⟨by omega, ?_⟩, small⟩, ?_⟩, rfl⟩
    · rw [long]
      exact (keeps_number.mp kept).2
    · have read := ofDigits?_digits value
      rwa [String.toList_ofList, Number.digits, ← written, ← Base.filterMap_charOf? small] at read

theorem canGive_name {text : S String}
    (texts : ∀ content, CanGive text content ↔ KeepsText content) (given : Name) :
    CanGive (name text) given ↔ KeepsName given := by
  obtain ⟨content, info⟩ := given
  simp [name, canGive_map, texts, KeepsName, and_comm, eq_comm]

theorem canGive_literal {text : S String}
    (texts : ∀ content, CanGive text content ↔ KeepsText content) {tree : Expr} :
    CanGive (literal settings text) tree ↔ tree.isLiteral = true ∧ Keeps settings tree := by
  simp only [literal, canGive_union, List.exists_mem_cons_iff, List.not_mem_nil, false_and,
    exists_false, or_false, canGive_number, boolean, null, string, canGive_map, canGive_just,
    canGive_bool, texts, true_and]
  cases tree with
  | string content info => simp [Expr.isLiteral, eq_comm, and_comm]
  | _ => simp [Expr.isLiteral, eq_comm]

/-! ## Composed expressions -/

section Composed

variable {name : S Name} {part : S Expr} {tree : Expr}

theorem canGive_arguments {given : List Expr} :
    CanGive (arguments settings part) given ↔
      given.length ≤ settings.maxArguments ∧ ∀ argument ∈ given, CanGive part argument := by
  simp [arguments, canGive_listOf]

theorem canGive_unary :
    CanGive (unary part) tree ↔
      ∃ op operand, CanGive part operand ∧ tree = .unary op operand Info.built := by
  simp [unary, canGive_map, canGive_pair, canGive_select, UnaryOp.mem_all, eq_comm]

theorem canGive_binary :
    CanGive (binary part) tree ↔ ∃ op left right,
      (CanGive part left ∧ CanGive part right) ∧ tree = .binary op left right Info.built := by
  simp [binary, canGive_map, canGive_pair, canGive_select, BinaryOp.mem_all, eq_comm]

theorem canGive_conditional :
    CanGive (conditional part) tree ↔ ∃ condition consequent alternative,
      (CanGive part condition ∧ CanGive part consequent ∧ CanGive part alternative) ∧
        tree = .conditional condition consequent alternative Info.built := by
  simp [conditional, canGive_map, canGive_pair, eq_comm]

theorem canGive_fieldAccess :
    CanGive (fieldAccess name part) tree ↔ ∃ aggregate field,
      (CanGive part aggregate ∧ CanGive name field) ∧
        tree = .fieldAccess aggregate field Info.built := by
  simp [fieldAccess, canGive_map, canGive_pair, eq_comm]

theorem canGive_methodCall :
    CanGive (methodCall settings name part) tree ↔ ∃ receiver method given,
      (CanGive part receiver ∧ CanGive name method ∧ given.length ≤ settings.maxArguments ∧
        ∀ argument ∈ given, CanGive part argument) ∧
        tree = .methodCall receiver method given Info.built := by
  simp [methodCall, canGive_map, canGive_pair, canGive_arguments, eq_comm]

theorem canGive_call :
    CanGive (call settings name part) tree ↔ ∃ function given,
      (CanGive name function ∧ given.length ≤ settings.maxArguments ∧
        ∀ argument ∈ given, CanGive part argument) ∧
        tree = .call function given Info.built := by
  simp [call, canGive_map, canGive_pair, canGive_arguments, eq_comm]

theorem canGive_initOf :
    CanGive (initOf settings name part) tree ↔ ∃ contract given,
      (CanGive name contract ∧ given.length ≤ settings.maxArguments ∧
        ∀ argument ∈ given, CanGive part argument) ∧
        tree = .initOf contract given Info.built := by
  simp [initOf, canGive_map, canGive_pair, canGive_arguments, eq_comm]

theorem canGive_field {entry : Field Expr} :
    CanGive (field name part) entry ↔
      CanGive name entry.name ∧ CanGive part entry.initializer ∧ entry.info = Info.built := by
  obtain ⟨name, initializer, info⟩ := entry
  simp only [field, canGive_map, canGive_pair, Prod.exists, Field.mk.injEq]
  grind

theorem canGive_structInstance :
    CanGive (structInstance settings name part) tree ↔ ∃ type fields,
      (CanGive name type ∧ fields.length ≤ settings.maxArguments ∧
        ∀ entry ∈ fields,
          CanGive name entry.name ∧ CanGive part entry.initializer ∧ entry.info = Info.built) ∧
        tree = .structInstance type fields Info.built := by
  simp [structInstance, canGive_map, canGive_pair, canGive_listOf, canGive_field, eq_comm]

end Composed

/-! ## Levels -/

def InLevel (settings : Settings) (level : Nat) (tree : Expr) : Prop :=
  levelOf tree ≤ level ∧ Keeps settings tree

section Parts

variable {below : Nat} {info : Info}

theorem next_level {inside : Nat} : 1 + max 1 inside ≤ below + 1 + 1 ↔ inside ≤ below + 1 := by
  omega

theorem inLevel_unary {op : UnaryOp} {operand : Expr} :
    InLevel settings (below + 1 + 1) (.unary op operand info) ↔
      InLevel settings (below + 1) operand ∧ info = Info.built := by
  simp only [InLevel, levelOf, next_level, keeps_unary]
  tauto

theorem inLevel_binary {op : BinaryOp} {left right : Expr} :
    InLevel settings (below + 1 + 1) (.binary op left right info) ↔
      (InLevel settings (below + 1) left ∧ InLevel settings (below + 1) right) ∧
        info = Info.built := by
  simp only [InLevel, levelOf, next_level, Nat.max_le, keeps_binary]
  tauto

theorem inLevel_conditional {condition consequent alternative : Expr} :
    InLevel settings (below + 1 + 1) (.conditional condition consequent alternative info) ↔
      (InLevel settings (below + 1) condition ∧ InLevel settings (below + 1) consequent ∧
        InLevel settings (below + 1) alternative) ∧ info = Info.built := by
  simp only [InLevel, levelOf, next_level, Nat.max_le, keeps_conditional]
  tauto

theorem inLevel_fieldAccess {aggregate : Expr} {field : Name} :
    InLevel settings (below + 1 + 1) (.fieldAccess aggregate field info) ↔
      (InLevel settings (below + 1) aggregate ∧ KeepsName field) ∧ info = Info.built := by
  simp only [InLevel, levelOf, next_level, keeps_fieldAccess]
  tauto

theorem inLevel_methodCall {receiver : Expr} {method : Name} {arguments : List Expr} :
    InLevel settings (below + 1 + 1) (.methodCall receiver method arguments info) ↔
      (InLevel settings (below + 1) receiver ∧ KeepsName method ∧
        arguments.length ≤ settings.maxArguments ∧
          ∀ argument ∈ arguments, InLevel settings (below + 1) argument) ∧ info = Info.built := by
  simp only [InLevel, levelOf, next_level, Nat.max_le, levelOfList_le, keeps_methodCall, imp_and,
    forall_and]
  tauto

theorem inLevel_call {function : Name} {arguments : List Expr} :
    InLevel settings (below + 1 + 1) (.call function arguments info) ↔
      (KeepsName function ∧ arguments.length ≤ settings.maxArguments ∧
        ∀ argument ∈ arguments, InLevel settings (below + 1) argument) ∧ info = Info.built := by
  simp only [InLevel, levelOf, next_level, levelOfList_le, keeps_call, imp_and, forall_and]
  tauto

theorem inLevel_initOf {contract : Name} {arguments : List Expr} :
    InLevel settings (below + 1 + 1) (.initOf contract arguments info) ↔
      (KeepsName contract ∧ arguments.length ≤ settings.maxArguments ∧
        ∀ argument ∈ arguments, InLevel settings (below + 1) argument) ∧ info = Info.built := by
  simp only [InLevel, levelOf, next_level, levelOfList_le, keeps_initOf, imp_and, forall_and]
  tauto

theorem inLevel_structInstance {type : Name} {fields : List (Field Expr)} :
    InLevel settings (below + 1 + 1) (.structInstance type fields info) ↔
      (KeepsName type ∧ fields.length ≤ settings.maxArguments ∧
        ∀ entry ∈ fields, KeepsName entry.name ∧ InLevel settings (below + 1) entry.initializer ∧
          entry.info = Info.built) ∧ info = Info.built := by
  simp only [InLevel, levelOf, next_level, levelOfFields_le, keeps_structInstance, KeepsField,
    imp_and, forall_and]
  tauto

end Parts

/-- What is composed of the trees of a level is of the next one, and what is of the next one is
composed of them unless it is a literal. -/
theorem canGive_composed {name : S Name} {part : S Expr} {below : Nat}
    (names : ∀ given, CanGive name given ↔ KeepsName given)
    (parts : ∀ tree, CanGive part tree ↔ InLevel settings (below + 1) tree) (tree : Expr) :
    (∃ option ∈ composed settings name part, CanGive option tree) ↔
      tree.isLiteral = false ∧ InLevel settings (below + 1 + 1) tree := by
  simp only [composed, List.exists_mem_cons_iff, List.not_mem_nil, false_and, exists_false,
    or_false, canGive_unary, canGive_binary, canGive_conditional, canGive_fieldAccess,
    canGive_methodCall, canGive_call, canGive_initOf, canGive_structInstance, names, parts]
  cases tree with
  | number | boolean | null | string | identifier => simp [Expr.isLiteral, InLevel]
  | unary => simp [Expr.isLiteral, inLevel_unary]
  | binary => simp [Expr.isLiteral, inLevel_binary]
  | conditional => simp [Expr.isLiteral, inLevel_conditional]
  | fieldAccess => simp [Expr.isLiteral, inLevel_fieldAccess]
  | methodCall => simp [Expr.isLiteral, inLevel_methodCall]
  | call => simp [Expr.isLiteral, inLevel_call]
  | initOf => simp [Expr.isLiteral, inLevel_initOf]
  | structInstance => simp [Expr.isLiteral, inLevel_structInstance]

theorem inLevel_of_isLiteral {level : Nat} {tree : Expr} (literal : tree.isLiteral = true)
    (kept : Keeps settings tree) : InLevel settings (level + 1) tree := by
  refine ⟨?_, kept⟩
  cases tree <;> simp_all [Expr.isLiteral, levelOf]

theorem isLiteral_of_inLevel_one {tree : Expr} (first : InLevel settings 1 tree) :
    tree.isLiteral = true := by
  obtain ⟨low, kept⟩ := first
  rcases levelOf_le_one low with literal | ⟨name, info, rfl⟩
  · exact literal
  · exact absurd kept keeps_identifier

theorem canGive_tree {text : S String}
    (texts : ∀ content, CanGive text content ↔ KeepsText content) (below : Nat) (given : Expr) :
    CanGive (tree settings text below) given ↔ InLevel settings (below + 1) given := by
  induction below generalizing given with
  | zero =>
      rw [tree, canGive_literal texts]
      exact ⟨fun ⟨literal, kept⟩ => inLevel_of_isLiteral literal kept,
        fun inLevel => ⟨isLiteral_of_inLevel_one inLevel, inLevel.2⟩⟩
  | succ below ih =>
      rw [tree, canGive_union, List.exists_mem_cons_iff, canGive_literal texts,
        canGive_composed (canGive_name texts) ih]
      constructor
      · rintro (⟨literal, kept⟩ | ⟨_, inLevel⟩)
        · exact inLevel_of_isLiteral literal kept
        · exact inLevel
      · intro inLevel
        cases literal : given.isLiteral with
        | true => exact Or.inl ⟨rfl, inLevel.2⟩
        | false => exact Or.inr ⟨rfl, inLevel⟩

/-! ## Generators -/

namespace Levels

/-- For every greatest level from one on there is a generator, made of the strategies of its
levels. -/
theorem exists_ofDepth {maxDepth : Nat} (positive : 0 < maxDepth) (settings : Settings) :
    ∃ (generator : Levels S) (text : S String), ofDepth maxDepth settings = .ok generator ∧
      generator.strategies = (List.range maxDepth).map (tree settings text) ∧
      ∀ content, CanGive text content ↔ KeepsText content := by
  obtain ⟨given, made, texts⟩ := exists_text (S := S)
  refine ⟨⟨settings, (List.range maxDepth).map (tree settings given), by
    simpa using Nat.pos_iff_ne_zero.mp positive⟩, given, ?_, rfl, texts⟩
  rw [ofDepth, dif_pos positive, made]
  rfl

theorem canGive_top {maxDepth : Nat} (positive : 0 < maxDepth) {generator : Levels S}
    (made : ofDepth maxDepth settings = .ok generator) (tree : Expr) :
    CanGive generator.top tree ↔ InLevel settings maxDepth tree := by
  obtain ⟨found, text, made', strategies, texts⟩ := exists_ofDepth (S := S) positive settings
  obtain rfl : found = generator := Except.ok.inj (made'.symm.trans made)
  obtain ⟨below, rfl⟩ : ∃ below, maxDepth = below + 1 := ⟨maxDepth - 1, by omega⟩
  have top : found.top = Generator.tree settings text below := by
    simp [Levels.top, strategies, List.getLast_eq_getElem]
  rw [top, canGive_tree texts]

end Levels

end Lawful

theorem Levels.atDepth?_succ {S : Type → Type} [Strategy S] {settings : Settings}
    {generator : Levels S} {maxDepth : Nat} {text : S String}
    (strategies : generator.strategies = (List.range maxDepth).map (tree settings text))
    (below : Nat) :
    generator.atDepth? (below + 1) =
      if below < maxDepth then some (tree settings text below) else none := by
  rw [Levels.atDepth?, strategies, List.getElem?_map]
  by_cases inside : below < maxDepth
  · rw [List.getElem?_range inside, if_pos inside, Option.map_some]
  · rw [List.getElem?_eq_none (by simpa using inside), if_neg inside, Option.map_none]

/-- A generator gives, at each of its levels, exactly the trees of that level that keep the
promise; they are no deeper than the level, those of the first level are literals, and those of
each level are among those of the next. It has no other level. -/
theorem atDepth?_exact {S : Type → Type} [Strategy S] [LawfulStrategy S] (maxDepth : Nat)
    (settings : Settings) (positive : 0 < maxDepth) :
    ∃ generator : Levels S, Levels.ofDepth maxDepth settings = .ok generator ∧
      (∀ depth, ¬(1 ≤ depth ∧ depth ≤ maxDepth) → generator.atDepth? depth = none) ∧
      ∀ depth, 1 ≤ depth → depth ≤ maxDepth →
        ∃ strategy, generator.atDepth? depth = some strategy ∧
          (∀ tree, CanGive strategy tree ↔ levelOf tree ≤ depth ∧ Keeps settings tree) ∧
          ∀ tree, CanGive strategy tree → tree.depth ≤ depth ∧
            (depth = 1 → tree.isLiteral = true) ∧
            ∀ next, generator.atDepth? (depth + 1) = some next → CanGive next tree := by
  obtain ⟨generator, text, made, strategies, texts⟩ :=
    Levels.exists_ofDepth (S := S) positive settings
  have level := Levels.atDepth?_succ strategies
  refine ⟨generator, made, ?_, ?_⟩
  · intro depth outside
    cases depth with
    | zero => rfl
    | succ below => exact (level below).trans (if_neg (by omega))
  intro depth lower upper
  obtain ⟨below, rfl⟩ : ∃ below, depth = below + 1 := ⟨depth - 1, by omega⟩
  refine ⟨_, (level below).trans (if_pos upper), canGive_tree texts below, fun given can => ?_⟩
  have inLevel := (canGive_tree texts below given).mp can
  refine ⟨Nat.le_trans (depth_le_levelOf given) inLevel.1, ?_, ?_⟩
  · intro first
    rw [first] at inLevel
    exact isLiteral_of_inLevel_one inLevel
  · intro next found
    rw [level] at found
    obtain ⟨_, same⟩ := Option.ite_none_right_eq_some.mp found
    cases same
    exact (canGive_tree texts (below + 1) given).mpr ⟨Nat.le_succ_of_le inLevel.1, inLevel.2⟩

/-- A call without arguments is as deep as a literal and yet only of the second level. -/
theorem atDepth?_exact_emptyCall :
    let empty := Expr.call ⟨"F", Info.built⟩ [] Info.built
    0 < 2 ∧ empty.depth = 1 ∧ ∃ (generator : Generator) (first second : Sampler Expr),
      Levels.ofDepth 2 Settings.standard = .ok generator ∧ generator.atDepth? 1 = some first ∧
        generator.atDepth? 2 = some second ∧ ¬CanGive first empty ∧ CanGive second empty := by
  intro empty
  obtain ⟨generator, made, _, given⟩ :=
    atDepth?_exact (S := Sampler) 2 Settings.standard (by decide)
  obtain ⟨first, isFirst, givenFirst, _⟩ := given 1 (by decide) (by decide)
  obtain ⟨second, isSecond, givenSecond, _⟩ := given 2 (by decide) (by decide)
  have fits : FitsPattern "F" := ⟨'F', [], rfl, by decide, by decide, by simp⟩
  have kept : Keeps Settings.standard empty := by
    rw [keeps_call]
    exact ⟨rfl, by decide, ⟨rfl, keepsText_iff.mpr fits⟩, by simp⟩
  have level : levelOf empty = 2 := rfl
  refine ⟨by decide, rfl, generator, first, second, made, isFirst, isSecond, ?_, ?_⟩
  · rw [givenFirst, level]
    omega
  · rw [givenSecond, level]
    exact ⟨Nat.le_refl _, kept⟩

end Generator
end ContractExpr
