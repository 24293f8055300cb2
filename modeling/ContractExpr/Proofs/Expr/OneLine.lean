import ContractExpr.Proofs.Expr.Names
import ContractExpr.Proofs.Token.Literals

/-! # Renderings are one line

The rendering of a well-named tree has no control character: string literals escape them, and no
other piece of a layout has any.
-/

set_option autoImplicit false

namespace ContractExpr

open Text Token

/-! ## Control characters -/

namespace Text

theorem isControl_of_isNamePart {c : Char} (part : isNamePart c = true) : isControl c = false := by
  rw [isNamePart_iff] at part
  simp [isControl, inRanges]
  omega

theorem isControl_of_any {text : List Char} (none : text.any isControl = false) :
    ∀ c ∈ text, isControl c = false := by
  simpa using none

namespace Quoted

theorem isControl_of_mem_escape (c : Char) : ∀ d ∈ escape c, isControl d = false := by
  have digits : ∀ d ∈ Base.hexadecimal.digits c.toNat, isControl d = false := fun d member =>
    isControl_of_isNamePart (Base.isNamePart_of_isDigit (Base.isDigit_of_mem_digits _ _ d member))
  unfold escape
  split_ifs with _ _ _ _ _ control
  iterate 5 · exact isControl_of_any (by decide)
  · have front : ∀ d ∈ ['\\', 'u', '\x7b'], isControl d = false := isControl_of_any (by decide)
    have close : ∀ d ∈ ['\x7d'], isControl d = false := isControl_of_any (by decide)
    exact List.forall_mem_append.mpr ⟨List.forall_mem_append.mpr ⟨front, digits⟩, close⟩
  · exact List.forall_mem_singleton.mpr (Bool.eq_false_iff.mpr control)

/-- No literal has a control character. -/
theorem isControl_of_mem_write (content : List Char) :
    ∀ c ∈ write content, isControl c = false := by
  have escaped : ∀ c ∈ content.flatMap escape, isControl c = false := by
    intro c member
    obtain ⟨meant, _, inEscape⟩ := List.mem_flatMap.mp member
    exact isControl_of_mem_escape meant c inEscape
  exact List.forall_mem_cons.mpr
    ⟨by decide, List.forall_mem_append.mpr ⟨escaped, isControl_of_any (by decide)⟩⟩

end Quoted
end Text

/-! ## The pieces of a layout -/

section Pieces

variable {holds : Piece → Prop} (symbol : ∀ mark, holds (.symbol mark)) (blank : holds .blank)

include symbol

theorem Piece.forall_operand {pieces : List Piece} (inner : ∀ piece ∈ pieces, holds piece)
    (least strength : Nat) : ∀ piece ∈ operand least strength pieces, holds piece := by
  unfold operand
  split
  · simpa [or_imp, forall_and, symbol] using inner
  · exact inner

include blank

theorem Piece.forall_spaced (mark : Symbol) : ∀ piece ∈ spaced mark, holds piece := by
  simp [spaced, symbol, blank]

namespace Expr

theorem forall_layoutOfFurther {trees : List Expr}
    (each : ∀ tree ∈ trees, ∀ piece ∈ tree.layout, holds piece) :
    ∀ piece ∈ layoutOfFurther trees, holds piece := by
  induction trees with
  | nil => simp [layoutOfFurther, symbol]
  | cons next rest ih =>
      obtain ⟨first, others⟩ := List.forall_mem_cons.mp each
      simpa [layoutOfFurther, Piece.separator, or_imp, forall_and, symbol, blank] using
        ⟨first, ih others⟩

theorem forall_layoutOfArguments {trees : List Expr}
    (each : ∀ tree ∈ trees, ∀ piece ∈ tree.layout, holds piece) :
    ∀ piece ∈ layoutOfArguments trees, holds piece := by
  cases trees with
  | nil => simp [layoutOfArguments, symbol]
  | cons first rest =>
      obtain ⟨single, others⟩ := List.forall_mem_cons.mp each
      have further := forall_layoutOfFurther symbol blank others
      simpa [layoutOfArguments, or_imp, forall_and, symbol] using ⟨single, further⟩

theorem forall_layoutOfFurtherFields {entries : List (Field Expr)}
    (each : ∀ entry ∈ entries, holds (.word entry.name.text) ∧
      ∀ piece ∈ entry.initializer.layout, holds piece) :
    ∀ piece ∈ layoutOfFurtherFields entries, holds piece := by
  induction entries with
  | nil => simp [layoutOfFurtherFields, symbol, blank]
  | cons next rest ih =>
      obtain ⟨⟨name, value⟩, others⟩ := List.forall_mem_cons.mp each
      simpa [layoutOfFurtherFields, Piece.separator, or_imp, forall_and, symbol, blank, name] using
        ⟨value, ih others⟩

theorem forall_layoutOfFields {entries : List (Field Expr)}
    (each : ∀ entry ∈ entries, holds (.word entry.name.text) ∧
      ∀ piece ∈ entry.initializer.layout, holds piece) :
    ∀ piece ∈ layoutOfFields entries, holds piece := by
  cases entries with
  | nil => simp [layoutOfFields, symbol]
  | cons first rest =>
      obtain ⟨⟨name, value⟩, others⟩ := List.forall_mem_cons.mp each
      have further := forall_layoutOfFurtherFields symbol blank others
      simpa [layoutOfFields, or_imp, forall_and, symbol, blank, name] using ⟨value, further⟩

/-- What holds of symbols, literals, blanks, and of the words of a tree holds of every piece of its
layout. -/
theorem forall_layout (number : ∀ value, holds (.number value))
    (string : ∀ content, holds (.string content))
    (keyword : ∀ word ∈ ["true", "false", "null", "initOf"], holds (.word word)) {tree : Expr}
    (words : ∀ word ∈ tree.words, holds (.word word)) : ∀ piece ∈ tree.layout, holds piece := by
  have place {pieces : List Piece} (inner : ∀ piece ∈ pieces, holds piece) (least strength : Nat) :=
    Piece.forall_operand symbol inner least strength
  have between := Piece.forall_spaced symbol blank
  induction tree using Expr.induct with
  | number value info => exact List.forall_mem_singleton.mpr (number value)
  | boolean value info =>
      cases value <;> exact List.forall_mem_singleton.mpr (keyword _ (by decide))
  | null info => exact List.forall_mem_singleton.mpr (keyword _ (by decide))
  | string content info => exact List.forall_mem_singleton.mpr (string content)
  | identifier name info => exact List.forall_mem_singleton.mpr (words name (by simp))
  | twoNots operand near far ih =>
      have inner := place (ih words) Precedence.sign operand.precedence
      have single := List.forall_mem_cons.mpr ⟨symbol UnaryOp.not.symbol, inner⟩
      exact List.forall_mem_cons.mpr ⟨symbol _, place single _ _⟩
  | unary op operand info single ih =>
      rw [layout]
      split
      · exact List.forall_mem_append.mpr ⟨place (ih words) _ _, by simp [symbol]⟩
      · exact List.forall_mem_cons.mpr ⟨symbol _, place (ih words) _ _⟩
  | binary op left right info former latter =>
      simp only [words_binary, List.forall_mem_append] at words
      have front := place (former words.1) op.precedence left.precedence
      have back := place (latter words.2) (op.precedence + 1) right.precedence
      simp only [layout, List.forall_mem_append]
      exact ⟨⟨front, between _⟩, back⟩
  | conditional condition consequent alternative info first second third =>
      simp only [words_conditional, List.forall_mem_append] at words
      obtain ⟨⟨inFirst, inSecond⟩, inThird⟩ := words
      simp only [layout, List.forall_mem_append]
      exact ⟨⟨⟨⟨place (first inFirst) _ _, between _⟩, place (second inSecond) _ _⟩, between _⟩,
        place (third inThird) _ _⟩
  | initOf contract arguments info ih =>
      rw [words_initOf, List.forall_mem_cons, List.forall_mem_flatMap] at words
      have list := forall_layoutOfArguments symbol blank fun argument member =>
        ih argument member (words.2 argument member)
      have initial := keyword "initOf" (by decide)
      simpa [layout, or_imp, forall_and, blank, initial, words.1] using list
  | methodCall receiver method arguments info ih each =>
      rw [words_methodCall, List.forall_mem_append, List.forall_mem_cons,
        List.forall_mem_flatMap] at words
      have front := place (ih words.1) Precedence.access receiver.precedence
      have list := forall_layoutOfArguments symbol blank fun argument member =>
        each argument member (words.2.2 argument member)
      simpa [layout, or_imp, forall_and, symbol, words.2.1] using ⟨front, list⟩
  | fieldAccess aggregate field info ih =>
      rw [words_fieldAccess, List.forall_mem_append, List.forall_mem_singleton] at words
      have front := place (ih words.1) Precedence.access aggregate.precedence
      simpa [layout, or_imp, forall_and, symbol, words.2] using front
  | call function arguments info ih =>
      rw [words_call, List.forall_mem_cons, List.forall_mem_flatMap] at words
      have list := forall_layoutOfArguments symbol blank fun argument member =>
        ih argument member (words.2 argument member)
      simpa [layout, words.1] using list
  | structInstance type fields info ih =>
      rw [words_structInstance, List.forall_mem_cons, List.forall_mem_flatMap] at words
      have list := forall_layoutOfFields symbol blank fun entry member => by
        obtain ⟨name, value⟩ := List.forall_mem_cons.mp (words.2 entry member)
        exact ⟨name, ih entry member value⟩
      simpa [layout, blank, words.1] using list

end Expr
end Pieces

namespace Expr

/-- The rendering of a well-named tree has no control character. -/
theorem isControl_of_mem_render {tree : Expr} (named : tree.WellNamed) :
    ∀ c ∈ tree.render.toList, isControl c = false := by
  have pieces : ∀ piece ∈ tree.layout, ∀ c ∈ piece.chars, isControl c = false := by
    refine forall_layout (fun mark => isControl_of_any ?_) (isControl_of_any (by decide))
      (fun value c member => ?_) (fun content => Quoted.isControl_of_mem_write content.toList)
      (fun word member => isControl_of_any ?_) (fun text member c inText => ?_)
    · cases mark <;> decide
    · exact isControl_of_isNamePart (isNamePart_of_mem_number value c member)
    · revert word
      decide
    · exact isControl_of_isNamePart (isNamePart_of_isName (named text member).1 c inText)
  rw [render, String.toList_ofList, Piece.write, List.forall_mem_flatMap]
  exact pieces

end Expr
end ContractExpr
