import ContractExpr.Proofs.Expr.Operators
import ContractExpr.Proofs.Token.Pieces
import ContractExpr.Roundtrip.Broken

/-! # Renderings with a plus for every minus

Between two blanks a rendering has a minus exactly where it has a subtraction, unless a string
literal has one. So a plus for every minus between blanks makes the rendering of a tree the
rendering of the tree with an addition for every subtraction.
-/

set_option autoImplicit false

namespace ContractExpr

open Text Token

def BinaryOp.plusForMinus : BinaryOp → BinaryOp
  | .subtract => .add
  | op => op

theorem BinaryOp.precedence_plusForMinus (op : BinaryOp) :
    op.plusForMinus.precedence = op.precedence := by
  cases op <;> rfl

def spacedMinus : List Char := [' ', '-', ' ']

namespace Expr

/-- The content of a string literal has no minus between two blanks. -/
def IsQuiet : Expr → Prop
  | .string content _ => ¬spacedMinus <:+: content.toList
  | _ => True

end Expr

namespace Frontend

/-! ## Texts -/

theorem plusForMinus_cons {c : Char} {rest : List Char} (plain : ¬spacedMinus <+: c :: rest) :
    plusForMinus (c :: rest) = c :: plusForMinus rest := by
  rw [plusForMinus]
  rintro rest rfl rfl
  exact plain (List.prefix_append spacedMinus rest)

theorem plusForMinus_append {front : List Char} (noBlank : ' ' ∉ front) (rest : List Char) :
    plusForMinus (front ++ rest) = front ++ plusForMinus rest := by
  induction front with
  | nil => rfl
  | cons c front ih =>
      rw [List.mem_cons, not_or] at noBlank
      rw [List.cons_append, plusForMinus_cons, ih noBlank.2, List.cons_append]
      simp [spacedMinus, noBlank.1]

/-! ## String literals -/

theorem blank_not_mem_escape {c : Char} (solid : c ≠ ' ') : ' ' ∉ Quoted.escape c := by
  have digits : ' ' ∉ Base.hexadecimal.digits c.toNat := fun member =>
    absurd (Base.isDigit_of_mem_digits _ _ ' ' member) (by decide)
  unfold Quoted.escape
  split_ifs
  all_goals first | decide | simp [digits, Ne.symm solid]

/-- Blanks and minus signs stand at the front of an escaped text only where they stand at the front
of the text. -/
theorem prefix_of_prefix_escaped {pattern content rest : List Char}
    (plain : ∀ c ∈ pattern, c = ' ' ∨ c = '-')
    (front : pattern <+: content.flatMap Quoted.escape ++ '"' :: rest) : pattern <+: content := by
  induction pattern generalizing content with
  | nil => exact List.nil_prefix
  | cons c pattern ih =>
      obtain ⟨isPlain, others⟩ := List.forall_mem_cons.mp plain
      cases content with
      | nil =>
          obtain ⟨rfl, _⟩ := List.cons_prefix_cons.mp front
          simp at isPlain
      | cons first content =>
          rw [List.flatMap_cons, List.append_assoc] at front
          rcases Quoted.escape_cases first with ⟨letter, text, _⟩ | ⟨_, text⟩ | ⟨_, _, _, text⟩ <;>
            obtain ⟨rfl, behind⟩ := List.cons_prefix_cons.mp (text ▸ front)
          · simp at isPlain
          · simp at isPlain
          · exact List.cons_prefix_cons.mpr ⟨rfl, ih others behind⟩

theorem plusForMinus_escaped {content : List Char} (quiet : ¬spacedMinus <:+: content)
    (rest : List Char) :
    plusForMinus (content.flatMap Quoted.escape ++ '"' :: rest) =
      content.flatMap Quoted.escape ++ plusForMinus ('"' :: rest) := by
  induction content with
  | nil => rfl
  | cons c content ih =>
      rw [List.infix_cons_iff, not_or] at quiet
      rw [List.flatMap_cons, List.append_assoc, List.append_assoc]
      by_cases blank : c = ' '
      · subst blank
        have plain : ¬spacedMinus <+: ' ' :: (content.flatMap Quoted.escape ++ '"' :: rest) := by
          intro front
          have behind := prefix_of_prefix_escaped (by simp) (List.cons_prefix_cons.mp front).2
          exact quiet.1 (List.cons_prefix_cons.mpr ⟨rfl, behind⟩)
        exact (plusForMinus_cons plain).trans (congrArg (' ' :: ·) (ih quiet.2))
      · rw [plusForMinus_append (blank_not_mem_escape blank), ih quiet.2]

end Frontend

/-! ## Layouts -/

open Frontend Piece

/-- The text of a layout is nonempty and begins neither with a blank nor with a minus and a blank,
whatever follows it. -/
structure Firm (pieces : List Piece) : Prop where
  solid : ∀ rest, ¬[' '] <+: Piece.write pieces ++ rest
  noMinus : ∀ rest, ¬['-', ' '] <+: Piece.write pieces ++ rest

namespace Firm

variable {front pieces : List Piece}

theorem append (firm : Firm front) (back : List Piece) : Firm (front ++ back) where
  solid rest := by
    rw [write_append, List.append_assoc]
    exact firm.solid _
  noMinus rest := by
    rw [write_append, List.append_assoc]
    exact firm.noMinus _

theorem of_chars {piece : Piece} {first : Char} {rest : List Char}
    (chars : piece.chars = first :: rest) (noBlank : first ≠ ' ') (noMinus : first ≠ '-')
    (pieces : List Piece) : Firm (piece :: pieces) := by
  constructor <;> intro behind <;> rw [write_cons, chars] <;>
    simp [List.cons_prefix_cons, Ne.symm noBlank, Ne.symm noMinus]

theorem symbol {mark : Symbol} (noMinus : mark ≠ .minus) (pieces : List Piece) :
    Firm (.symbol mark :: pieces) := by
  cases mark with
  | minus => exact absurd rfl noMinus
  | _ => exact of_chars rfl (by decide) (by decide) pieces

theorem minus (firm : Firm pieces) : Firm (.symbol .minus :: pieces) where
  solid rest front := absurd (List.cons_prefix_cons.mp front).1 (by decide)
  noMinus rest front := firm.solid rest (List.cons_prefix_cons.mp front).2

theorem of_nameParts (piece : Piece) (nonempty : piece.chars ≠ [])
    (parts : ∀ c ∈ piece.chars, isNamePart c = true) (pieces : List Piece) :
    Firm (piece :: pieces) := by
  obtain ⟨first, rest, chars⟩ := List.exists_cons_of_ne_nil nonempty
  have part := parts first (chars ▸ List.mem_cons_self)
  refine of_chars chars ?_ ?_ pieces
  · rintro rfl
    exact absurd part (by decide)
  · rintro rfl
    exact absurd part (by decide)

theorem word {text : String} (shape : isName text.toList = true) (pieces : List Piece) :
    Firm (.word text :: pieces) := by
  refine of_nameParts (.word text) (fun none => ?_) (isNamePart_of_isName shape) pieces
  rw [Piece.chars] at none
  simp [none, isName] at shape

theorem number (value : Number) : Firm [.number value] := by
  refine of_nameParts (.number value) (fun none => ?_) (isNamePart_of_mem_number value) []
  exact value.base.digits_ne_nil value.value (List.append_eq_nil_iff.mp none).2

theorem operand (firm : Firm pieces) (least strength : Nat) :
    Firm (Piece.operand least strength pieces) := by
  unfold Piece.operand
  split
  · exact symbol (by decide) _
  · exact firm

end Firm

theorem firm_fields (entries : List (Field Expr)) : Firm (Expr.layoutOfFields entries) := by
  cases entries <;> exact .symbol (by decide) _

theorem firm_layout {tree : Expr} (named : tree.WellNamed) : Firm tree.layout := by
  induction tree using Expr.induct with
  | number value info => exact .number value
  | boolean value info => cases value <;> exact .word rfl _
  | null info => exact .word rfl _
  | string content info => exact .of_chars rfl (by decide) (by decide) _
  | identifier name info => exact .word (Expr.wellNamed_identifier.mp named).1 _
  | twoNots operand near far ih => exact .symbol (by decide) _
  | unary op operand info single ih =>
      have inner := ih (Expr.wellNamed_unary.mp named)
      cases op with
      | negate => exact (inner.operand _ _).minus
      | notNull => exact (inner.operand _ _).append _
      | plus | not | bitNot => exact .symbol (by decide) _
  | binary op left right info former latter =>
      have front := former (Expr.wellNamed_binary.mp named).1
      exact ((front.operand _ _).append _).append _
  | conditional condition consequent alternative info first second third =>
      have front := first (Expr.wellNamed_conditional.mp named).1
      exact ((((front.operand _ _).append _).append _).append _).append _
  | initOf contract arguments info ih => exact .word rfl _
  | methodCall receiver method arguments info ih given =>
      have front := ih (Expr.wellNamed_methodCall.mp named).1
      exact (front.operand _ _).append _
  | fieldAccess aggregate field info ih =>
      have front := ih (Expr.wellNamed_fieldAccess.mp named).1
      exact (front.operand _ _).append _
  | call function arguments info ih => exact .word (Expr.wellNamed_call.mp named).1.1 _
  | structInstance type fields info ih =>
      exact .word (Expr.wellNamed_structInstance.mp named).1.1 _

/-- With a plus for every minus between blanks, the text of the first layout is the text of the
second, whatever follows. -/
def Turns (pieces pieces' : List Piece) : Prop :=
  ∀ rest, plusForMinus (Piece.write pieces ++ rest) = Piece.write pieces' ++ plusForMinus rest

namespace Turns

variable {front front' pieces pieces' : List Piece}

theorem nil : Turns [] [] := fun _ => rfl

theorem append (former : Turns front front') (latter : Turns pieces pieces') :
    Turns (front ++ pieces) (front' ++ pieces') := by
  intro rest
  rw [write_append, write_append, List.append_assoc, List.append_assoc, former, latter]

theorem cons {piece : Piece} (noBlank : ' ' ∉ piece.chars) (behind : Turns pieces pieces') :
    Turns (piece :: pieces) (piece :: pieces') := by
  intro rest
  rw [write_cons, write_cons, List.append_assoc, List.append_assoc, plusForMinus_append noBlank,
    behind]

theorem symbol (mark : Symbol) (behind : Turns pieces pieces') :
    Turns (.symbol mark :: pieces) (.symbol mark :: pieces') :=
  cons (by cases mark <;> decide) behind

theorem nameParts (piece : Piece) (parts : ∀ c ∈ piece.chars, isNamePart c = true)
    (behind : Turns pieces pieces') : Turns (piece :: pieces) (piece :: pieces') :=
  cons (fun member => absurd (parts ' ' member) (by decide)) behind

theorem word {text : String} (shape : isName text.toList = true) (behind : Turns pieces pieces') :
    Turns (.word text :: pieces) (.word text :: pieces') :=
  nameParts (.word text) (isNamePart_of_isName shape) behind

theorem number (value : Number) : Turns [.number value] [.number value] :=
  nameParts (.number value) (isNamePart_of_mem_number value) nil

theorem string {content : String} (quiet : ¬spacedMinus <:+: content.toList) :
    Turns [.string content] [.string content] := by
  intro rest
  have text : Piece.write [.string content] ++ rest =
      ['"'] ++ (content.toList.flatMap Quoted.escape ++ '"' :: rest) := by
    simp [Piece.write, Piece.chars, Quoted.write]
  have quote : plusForMinus ('"' :: rest) = '"' :: plusForMinus rest :=
    @plusForMinus_append ['"'] (by decide) rest
  rw [text, plusForMinus_append (by decide), plusForMinus_escaped quiet, quote]
  simp [Piece.write, Piece.chars, Quoted.write]

theorem blank (firm : Firm pieces) (behind : Turns pieces pieces') :
    Turns (.blank :: pieces) (.blank :: pieces') := by
  intro rest
  have plain : ¬spacedMinus <+: ' ' :: (Piece.write pieces ++ rest) := fun begins =>
    firm.noMinus rest (List.cons_prefix_cons.mp begins).2
  exact (plusForMinus_cons plain).trans (congrArg (' ' :: ·) (behind rest))

theorem spaced {mark : Symbol} (noMinus : mark ≠ .minus) (firm : Firm pieces)
    (behind : Turns pieces pieces') :
    Turns (Piece.spaced mark ++ pieces) (Piece.spaced mark ++ pieces') :=
  blank (.symbol noMinus _) (symbol mark (blank firm behind))

/-- Between two operands a minus turns and every other operator stays. -/
theorem operator (op : BinaryOp) (firm : Firm pieces) (behind : Turns pieces pieces') :
    Turns (Piece.spaced op.symbol ++ pieces) (Piece.spaced op.plusForMinus.symbol ++ pieces') := by
  cases op with
  | subtract => exact fun rest => congrArg ([' ', '+', ' '] ++ ·) (behind rest)
  | _ => exact spaced (by decide) firm behind

theorem operand (inner : Turns pieces pieces') (least strength : Nat) :
    Turns (Piece.operand least strength pieces) (Piece.operand least strength pieces') := by
  unfold Piece.operand
  split
  · exact symbol _ (inner.append (symbol _ nil))
  · exact inner

/-! ## Lists -/

section Lists

variable {change : Expr → Expr} {trees : List Expr} {entries : List (Field Expr)}

theorem further
    (each : ∀ tree ∈ trees, Firm tree.layout ∧ Turns tree.layout (change tree).layout) :
    Turns (Expr.layoutOfFurther trees) (Expr.layoutOfFurther (trees.map change)) := by
  induction trees with
  | nil => exact symbol _ nil
  | cons next rest ih =>
      obtain ⟨⟨firm, inner⟩, others⟩ := List.forall_mem_cons.mp each
      simp only [List.map_cons, Expr.layoutOfFurther, separator, List.append_assoc]
      exact symbol _ (blank (firm.append _) (inner.append (ih others)))

theorem arguments
    (each : ∀ tree ∈ trees, Firm tree.layout ∧ Turns tree.layout (change tree).layout) :
    Turns (Expr.layoutOfArguments trees) (Expr.layoutOfArguments (trees.map change)) := by
  cases trees with
  | nil => exact symbol _ (symbol _ nil)
  | cons first rest =>
      obtain ⟨⟨_, inner⟩, others⟩ := List.forall_mem_cons.mp each
      exact symbol _ (inner.append (further others))

theorem field {entry : Field Expr} {value : Expr} (usable : UsableName entry.name.text)
    (inner : Firm entry.initializer.layout ∧ Turns entry.initializer.layout value.layout)
    (behind : Turns pieces pieces') :
    Turns
      (.word entry.name.text :: .symbol .colon :: .blank :: (entry.initializer.layout ++ pieces))
      (.word entry.name.text :: .symbol .colon :: .blank :: (value.layout ++ pieces')) :=
  word usable.1 (symbol _ (blank (inner.1.append _) (inner.2.append behind)))

theorem furtherFields
    (each : ∀ entry ∈ entries, UsableName entry.name.text ∧ Firm entry.initializer.layout ∧
      Turns entry.initializer.layout (change entry.initializer).layout) :
    Turns (Expr.layoutOfFurtherFields entries) (Expr.layoutOfFurtherFields
      (entries.map fun entry => { entry with initializer := change entry.initializer })) := by
  induction entries with
  | nil => exact blank (.symbol (by decide) _) (symbol _ nil)
  | cons next rest ih =>
      obtain ⟨⟨usable, inner⟩, others⟩ := List.forall_mem_cons.mp each
      exact symbol _ (blank (.word usable.1 _) (field usable inner (ih others)))

theorem fields
    (each : ∀ entry ∈ entries, UsableName entry.name.text ∧ Firm entry.initializer.layout ∧
      Turns entry.initializer.layout (change entry.initializer).layout) :
    Turns (Expr.layoutOfFields entries) (Expr.layoutOfFields
      (entries.map fun entry => { entry with initializer := change entry.initializer })) := by
  cases entries with
  | nil => exact symbol _ (symbol _ nil)
  | cons first rest =>
      obtain ⟨⟨usable, inner⟩, others⟩ := List.forall_mem_cons.mp each
      exact symbol _ (blank (.word usable.1 _) (field usable inner (furtherFields others)))

end Lists

end Turns

/-! ## Trees -/

namespace Expr

def withPlus (tree : Expr) : Expr := tree.mapOps BinaryOp.plusForMinus

/-- The layout of a tree turns into the layout of the tree with an addition for every subtraction,
which has its parentheses in the same places. -/
theorem turns_layout {tree : Expr} (named : tree.WellNamed) (quiet : tree.Everywhere IsQuiet) :
    Turns tree.layout tree.withPlus.layout := by
  induction tree using induct_parts with
  | step tree ih =>
      obtain ⟨here, below⟩ := everywhere_iff.mp quiet
      have whole (part : Expr) (member : part ∈ tree.parts) (named : part.WellNamed) :
          Firm part.layout ∧ Turns part.layout part.withPlus.layout :=
        ⟨firm_layout named, ih part member named (below part member)⟩
      have place (least : Nat) (part : Expr) (member : part ∈ tree.parts)
          (named : part.WellNamed) : Firm (operand least part.precedence part.layout) ∧
            Turns (operand least part.precedence part.layout)
              (operand least part.withPlus.precedence part.withPlus.layout) := by
        obtain ⟨firm, turns⟩ := whole part member named
        rw [withPlus, precedence_mapOps BinaryOp.precedence_plusForMinus]
        exact ⟨firm.operand _ _, turns.operand _ _⟩
      rw [withPlus]
      cases tree with
      | number value info => exact .number value
      | boolean value info => cases value <;> exact .word rfl .nil
      | null info => exact .word rfl .nil
      | string content info => exact .string here
      | identifier name info => exact .word (wellNamed_identifier.mp named).1 .nil
      | unary op operand info =>
          have inner (least : Nat) :=
            (place least operand List.mem_cons_self (wellNamed_unary.mp named)).2
          rw [mapOps, layout, layout]
          split
          · exact (inner _).append (.symbol _ .nil)
          · exact .symbol _ (inner _)
      | binary op left right info =>
          obtain ⟨namedLeft, namedRight⟩ := wellNamed_binary.mp named
          have former := place op.precedence left (by simp [parts]) namedLeft
          have latter := place (op.precedence + 1) right (by simp [parts]) namedRight
          rw [mapOps, layout, layout, BinaryOp.precedence_plusForMinus, List.append_assoc,
            List.append_assoc]
          exact former.2.append (.operator op latter.1 latter.2)
      | conditional condition consequent alternative info =>
          obtain ⟨namedFirst, namedSecond, namedThird⟩ := wellNamed_conditional.mp named
          have first := place Precedence.loosestBinary condition (by simp [parts]) namedFirst
          have second := place Precedence.loosestBinary consequent (by simp [parts]) namedSecond
          have third := place Precedence.conditional alternative (by simp [parts]) namedThird
          simp only [mapOps, layout, List.append_assoc]
          exact first.2.append (.spaced (by decide) (second.1.append _)
            (second.2.append (.spaced (by decide) third.1 third.2)))
      | initOf contract arguments info =>
          obtain ⟨usable, each⟩ := wellNamed_initOf.mp named
          have list := Turns.arguments fun argument member =>
            whole argument member (each argument member)
          rw [mapOps, mapOpsOfList_eq]
          exact .word rfl (.blank (.word usable.1 _) (.word usable.1 list))
      | methodCall receiver method arguments info =>
          obtain ⟨namedReceiver, usable, each⟩ := wellNamed_methodCall.mp named
          have front := place Precedence.access receiver List.mem_cons_self namedReceiver
          have list := Turns.arguments fun argument member =>
            whole argument (List.mem_cons_of_mem _ member) (each argument member)
          rw [mapOps, mapOpsOfList_eq]
          exact front.2.append (.symbol _ (.word usable.1 list))
      | fieldAccess aggregate field info =>
          obtain ⟨namedAggregate, usable⟩ := wellNamed_fieldAccess.mp named
          have front := place Precedence.access aggregate List.mem_cons_self namedAggregate
          exact front.2.append (.symbol _ (.word usable.1 .nil))
      | call function arguments info =>
          obtain ⟨usable, each⟩ := wellNamed_call.mp named
          have list := Turns.arguments fun argument member =>
            whole argument member (each argument member)
          rw [mapOps, mapOpsOfList_eq]
          exact .word usable.1 list
      | structInstance type fields info =>
          obtain ⟨usable, each⟩ := wellNamed_structInstance.mp named
          have list := Turns.fields fun field member =>
            ⟨(each field member).1,
              whole field.initializer (List.mem_map_of_mem member) (each field member).2⟩
          rw [mapOps, mapOpsOfFields_eq]
          exact .word usable.1 (.blank (firm_fields fields) list)

theorem plusForMinus_render {tree : Expr} (named : tree.WellNamed)
    (quiet : tree.Everywhere IsQuiet) :
    String.ofList (plusForMinus tree.render.toList) = tree.withPlus.render := by
  have turned := turns_layout named quiet []
  rw [List.append_nil] at turned
  rw [render, String.toList_ofList, turned, plusForMinus, List.append_nil]
  rfl

end Expr
end ContractExpr
