import ContractExpr.Proofs.Expr.Names
import ContractExpr.Proofs.Expr.Written
import ContractExpr.Proofs.Token.Pieces

/-! # The tokens of a rendering

The text of a well-named tree has the tokens of the tree, `Expr.kinds`.
-/

set_option autoImplicit false

namespace ContractExpr

open Text Token Grammar Piece

namespace ReadsAs

theorem close (mark : Symbol) (solid : mark.isSolid = true) :
    ReadsAs [.symbol mark] [.symbol mark] := nil.solid mark solid

theorem operand {pieces : List Piece} {kinds : List Kind} (inner : ReadsAs pieces kinds)
    (least strength : Nat) :
    ReadsAs (Piece.operand least strength pieces) (grouped least strength kinds) := by
  unfold Piece.operand grouped
  split
  · exact (inner.append (close _ rfl) (parts_symbol _ _)).solid _ rfl
  · exact inner

theorem between {front pieces : List Piece} {kinds behind : List Kind} (mark : Symbol)
    (former : ReadsAs front kinds) (latter : ReadsAs pieces behind) :
    ReadsAs (front ++ Piece.spaced mark ++ pieces) (kinds ++ .symbol mark :: behind) := by
  rw [List.append_assoc]
  exact former.append (latter.spaced mark) (parts_blank _)

/-! ## Lists -/

section Lists

variable {trees : List Expr} {entries : List (Field Expr)}

theorem further (each : ∀ tree ∈ trees, ReadsAs tree.layout tree.kinds) :
    ReadsAs (Expr.layoutOfFurther trees)
      ((Expr.kindsOfList trees).flatMap (Kind.symbol .comma :: ·) ++ [.symbol .rightParen]) := by
  induction trees with
  | nil => exact close _ rfl
  | cons next rest ih =>
      obtain ⟨first, others⟩ := List.forall_mem_cons.mp each
      have parts : Parts (Expr.layoutOfFurther rest) := by
        cases rest <;> exact parts_symbol _ _
      have both := (first.append (ih others) parts).blank.solid .comma rfl
      simpa [Expr.layoutOfFurther, Expr.kindsOfList, separator] using both

theorem arguments (each : ∀ tree ∈ trees, ReadsAs tree.layout tree.kinds) :
    ReadsAs (Expr.layoutOfArguments trees)
      (.symbol .leftParen :: (joined (Expr.kindsOfList trees) ++ [.symbol .rightParen])) := by
  cases trees with
  | nil => exact (close _ rfl).solid _ rfl
  | cons first rest =>
      obtain ⟨single, others⟩ := List.forall_mem_cons.mp each
      have parts : Parts (Expr.layoutOfFurther rest) := by
        cases rest <;> exact parts_symbol _ _
      have both := (single.append (further others) parts).solid .leftParen rfl
      simpa [Expr.layoutOfArguments, Expr.kindsOfList, joined] using both

theorem field {entry : Field Expr} {pieces : List Piece} {kinds : List Kind}
    (usable : UsableName entry.name.text)
    (value : ReadsAs entry.initializer.layout entry.initializer.kinds)
    (behind : ReadsAs pieces kinds) (parts : Parts pieces) :
    ReadsAs
      (.word entry.name.text :: .symbol .colon :: .blank :: (entry.initializer.layout ++ pieces))
      (.name entry.name.text :: .symbol .colon :: (entry.initializer.kinds ++ kinds)) :=
  ((value.append behind parts).blank.solid _ rfl).name usable (parts_symbol _ _)

theorem furtherFields
    (each : ∀ entry ∈ entries, UsableName entry.name.text ∧
      ReadsAs entry.initializer.layout entry.initializer.kinds) :
    ReadsAs (Expr.layoutOfFurtherFields entries)
      ((Expr.kindsOfFields entries).flatMap (Kind.symbol .comma :: ·) ++
        [.symbol .rightBrace]) := by
  induction entries with
  | nil => exact (close _ rfl).blank
  | cons next rest ih =>
      obtain ⟨⟨usable, value⟩, others⟩ := List.forall_mem_cons.mp each
      have parts : Parts (Expr.layoutOfFurtherFields rest) := by
        cases rest
        · exact parts_blank _
        · exact parts_symbol _ _
      have both := (field usable value (ih others) parts).blank.solid .comma rfl
      simpa [Expr.layoutOfFurtherFields, Expr.kindsOfFields, separator] using both

theorem fields
    (each : ∀ entry ∈ entries, UsableName entry.name.text ∧
      ReadsAs entry.initializer.layout entry.initializer.kinds) :
    ReadsAs (Expr.layoutOfFields entries)
      (.symbol .leftBrace :: (joined (Expr.kindsOfFields entries) ++ [.symbol .rightBrace])) := by
  cases entries with
  | nil => exact (close _ rfl).solid _ rfl
  | cons first rest =>
      obtain ⟨⟨usable, value⟩, others⟩ := List.forall_mem_cons.mp each
      have parts : Parts (Expr.layoutOfFurtherFields rest) := by
        cases rest
        · exact parts_blank _
        · exact parts_symbol _ _
      have both := (field usable value (furtherFields others) parts).blank.solid .leftBrace rfl
      simpa [Expr.layoutOfFields, Expr.kindsOfFields, joined] using both

end Lists

end ReadsAs

/-! ## Trees -/

theorem parts_arguments (trees : List Expr) : Parts (Expr.layoutOfArguments trees) := by
  cases trees <;> exact parts_symbol _ _

theorem opens_word {text : String} (shape : isName text.toList = true) (pieces : List Piece) :
    Opens (.word text :: pieces) := by
  obtain ⟨first, rest, chars, start⟩ := isNameStart_of_isName shape
  refine ⟨first, rest ++ Piece.write pieces, ?_, ?_, ?_⟩
  · rw [write_cons, Piece.chars, chars, List.cons_append]
  · rintro rfl
    exact absurd start (by decide)
  · rintro rfl
    exact absurd start (by decide)

theorem opens_number (number : Number) : Opens [.number number] := by
  obtain ⟨first, rest, chars, digit⟩ := Lexeme.chars_begins number
  refine ⟨first, rest ++ [], ?_, ?_, ?_⟩
  · rw [write_cons, Piece.chars, chars, List.cons_append]
    rfl
  · rintro rfl
    exact absurd digit (by decide)
  · rintro rfl
    exact absurd digit (by decide)

/-- A well-named tree without an operator before it opens with no negation. -/
theorem opens_layout {expr : Expr} (named : expr.WellNamed)
    (strong : Precedence.access ≤ expr.precedence) : Opens expr.layout := by
  induction expr using Expr.induct with
  | number value info => exact opens_number value
  | boolean value info => cases value <;> exact opens_word rfl _
  | null info => exact opens_word rfl _
  | string content info => exact ⟨'"', _, rfl, by decide, by decide⟩
  | identifier name info => exact opens_word (Expr.wellNamed_identifier.mp named).1 _
  | twoNots operand near far ih =>
      have impossible : Precedence.access ≤ Precedence.sign := strong
      exact absurd impossible (by decide)
  | unary op operand info single ih =>
      cases op with
      | notNull =>
          have inner := opens_operand (ih (Expr.wellNamed_unary.mp named))
          exact opens_append inner [.symbol .doubleBang]
      | _ =>
          have impossible : Precedence.access ≤ Precedence.sign := strong
          exact absurd impossible (by decide)
  | binary op left right info former latter =>
      have below : Precedence.sign ≤ Precedence.access := by decide
      exact absurd (Nat.le_trans below strong) (Nat.not_le_of_lt op.precedence_lt_sign)
  | conditional condition consequent alternative info first second third =>
      have impossible : Precedence.access ≤ Precedence.conditional := strong
      exact absurd impossible (by decide)
  | initOf contract arguments info ih => exact opens_word rfl _
  | methodCall receiver method arguments info ih given =>
      exact opens_append (opens_operand (ih (Expr.wellNamed_methodCall.mp named).1)) _
  | fieldAccess aggregate field info ih =>
      exact opens_append (opens_operand (ih (Expr.wellNamed_fieldAccess.mp named).1)) _
  | call function arguments info ih =>
      exact opens_word (Expr.wellNamed_call.mp named).1.1 _
  | structInstance type fields info ih =>
      exact opens_word (Expr.wellNamed_structInstance.mp named).1.1 _

theorem opens_single {expr : Expr} (named : expr.WellNamed) (single : expr.isNot = false) :
    Opens (Piece.operand Precedence.sign expr.precedence expr.layout) := by
  apply opens_operand
  intro strong
  by_cases stronger : Precedence.access ≤ expr.precedence
  · exact opens_layout named stronger
  cases expr with
  | unary op operand info =>
      cases op with
      | plus | negate | bitNot => exact opens_symbol (by decide) (by decide) _
      | not => cases single
      | notNull => exact absurd (Nat.le_refl _) stronger
  | binary op left right info =>
      exact absurd strong (Nat.not_le_of_lt op.precedence_lt_sign)
  | conditional condition consequent alternative info =>
      have impossible : Precedence.sign ≤ Precedence.conditional := strong
      exact absurd impossible (by decide)
  | methodCall | fieldAccess => exact absurd (Nat.le_refl _) stronger
  | _ => exact absurd (Nat.le_succ _) stronger

theorem readsAs_unary {op : UnaryOp} {operand : Expr} {info : Info}
    (single : op = .not → operand.isNot = false) (named : operand.WellNamed)
    (inner : ReadsAs operand.layout operand.kinds) :
    ReadsAs (Expr.unary op operand info).layout (Expr.unary op operand info).kinds := by
  have behind := inner.operand Precedence.sign operand.precedence
  rw [Expr.kinds_unary single]
  cases op with
  | plus => exact behind.solid .plus rfl
  | negate => exact behind.solid .minus rfl
  | not => exact behind.bang (opens_single named (single rfl))
  | bitNot => exact behind.solid .tilde rfl
  | notNull =>
      have close := ReadsAs.close .doubleBang rfl
      exact (inner.operand Precedence.access operand.precedence).append close (parts_symbol _ _)

/-- The text of a well-named tree has the tokens of the tree. -/
theorem readsAs_layout {expr : Expr} (named : expr.WellNamed) :
    ReadsAs expr.layout expr.kinds := by
  induction expr using Expr.induct with
  | number value info => exact .number value
  | boolean value info => cases value <;> exact ReadsAs.nil.word rfl rfl parts_nil
  | null info => exact ReadsAs.nil.word rfl rfl parts_nil
  | string content info => exact .string content
  | identifier name info => exact ReadsAs.nil.name (Expr.wellNamed_identifier.mp named) parts_nil
  | twoNots operand near far ih =>
      have inner := ih (Expr.wellNamed_unary.mp (Expr.wellNamed_unary.mp named))
      exact (inner.operand Precedence.sign operand.precedence).solid .doubleBang rfl
  | unary op operand info single ih =>
      have namedOperand := Expr.wellNamed_unary.mp named
      exact readsAs_unary single namedOperand (ih namedOperand)
  | binary op left right info former latter =>
      obtain ⟨namedLeft, namedRight⟩ := Expr.wellNamed_binary.mp named
      have front := (former namedLeft).operand op.precedence left.precedence
      have back := (latter namedRight).operand (op.precedence + 1) right.precedence
      exact front.between op.symbol back
  | conditional condition consequent alternative info first second third =>
      obtain ⟨namedFirst, namedSecond, namedThird⟩ := Expr.wellNamed_conditional.mp named
      have front := (first namedFirst).operand Precedence.loosestBinary condition.precedence
      have middle := (second namedSecond).operand Precedence.loosestBinary consequent.precedence
      have back := (third namedThird).operand Precedence.conditional alternative.precedence
      have whole := (front.between .question middle).between .colon back
      have same : (Expr.conditional condition consequent alternative info).kinds =
          (grouped Precedence.loosestBinary condition.precedence condition.kinds ++
            .symbol .question ::
              grouped Precedence.loosestBinary consequent.precedence consequent.kinds) ++
            .symbol .colon ::
              grouped Precedence.conditional alternative.precedence alternative.kinds := by
        simp [Expr.kinds, Expr.grouped_conditional]
      rw [same]
      exact whole
  | initOf contract arguments info ih =>
      obtain ⟨usable, each⟩ := Expr.wellNamed_initOf.mp named
      have list :=
        ReadsAs.arguments fun argument member => ih argument member (each argument member)
      exact (list.name usable (parts_arguments _)).blank.word rfl rfl (parts_blank _)
  | methodCall receiver method arguments info ih given =>
      obtain ⟨namedReceiver, usable, each⟩ := Expr.wellNamed_methodCall.mp named
      have list := ReadsAs.arguments fun argument member =>
        given argument member (each argument member)
      have behind := (list.name usable (parts_arguments _)).solid .dot rfl
      have front := (ih namedReceiver).operand Precedence.access receiver.precedence
      exact front.append behind (parts_symbol _ _)
  | fieldAccess aggregate field info ih =>
      obtain ⟨namedAggregate, usable⟩ := Expr.wellNamed_fieldAccess.mp named
      have behind := (ReadsAs.nil.name usable parts_nil).solid .dot rfl
      have front := (ih namedAggregate).operand Precedence.access aggregate.precedence
      exact front.append behind (parts_symbol _ _)
  | call function arguments info ih =>
      obtain ⟨usable, each⟩ := Expr.wellNamed_call.mp named
      have list :=
        ReadsAs.arguments fun argument member => ih argument member (each argument member)
      exact list.name usable (parts_arguments _)
  | structInstance type fields info ih =>
      obtain ⟨usable, each⟩ := Expr.wellNamed_structInstance.mp named
      have list := ReadsAs.fields fun field member =>
        ⟨(each field member).1, ih field member (each field member).2⟩
      exact list.blank.name usable (parts_blank _)

end ContractExpr
