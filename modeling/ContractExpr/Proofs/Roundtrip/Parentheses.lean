import ContractExpr.Proofs.Grammar.Openings
import ContractExpr.Proofs.Roundtrip.Rendering

/-! # No parenthesis too many

A tree is written with the least number of opening parentheses that any accepted source of it has.
So a rendering that loses a pair of parentheses no longer stands for its tree.
-/

set_option autoImplicit false

namespace ContractExpr

open Text Token Grammar Piece

/-! ## Layouts without comments -/

/-- Whether a piece can stand before any other without beginning a comment. -/
def Piece.IsCalm : Piece → Prop
  | .word text => isName text.toList = true
  | .symbol mark => mark ≠ .slash
  | _ => True

/-- A layout in which a blank stands behind every slash. -/
inductive Calm : List Piece → Prop where
  | nil : Calm []
  | slash {pieces : List Piece} (behind : Calm pieces) :
      Calm (.symbol .slash :: .blank :: pieces)
  | piece {piece : Piece} {pieces : List Piece} (calm : piece.IsCalm) (behind : Calm pieces) :
      Calm (piece :: pieces)

namespace Calm

variable {front pieces : List Piece}

theorem append (former : Calm front) (latter : Calm pieces) : Calm (front ++ pieces) := by
  induction former with
  | nil => exact latter
  | slash _ ih => exact .slash ih
  | piece calm _ ih => exact .piece calm ih

theorem symbol {mark : Symbol} (noSlash : mark ≠ .slash) (behind : Calm pieces) :
    Calm (.symbol mark :: pieces) := .piece noSlash behind

theorem blank (behind : Calm pieces) : Calm (.blank :: pieces) := .piece trivial behind

theorem word {text : String} (shape : isName text.toList = true) (behind : Calm pieces) :
    Calm (.word text :: pieces) := .piece shape behind

theorem spaced (mark : Symbol) : Calm (Piece.spaced mark) := by
  by_cases same : mark = .slash
  · subst same
    exact blank (.slash .nil)
  · exact blank (symbol same (blank .nil))

theorem operand (calm : Calm pieces) (least strength : Nat) :
    Calm (Piece.operand least strength pieces) := by
  unfold Piece.operand
  split
  · exact symbol (by decide) (calm.append (symbol (by decide) .nil))
  · exact calm

/-- A layout without one of its symbols is calm when the whole is. -/
theorem without {mark : Symbol} (noSlash : mark ≠ .slash)
    (calm : Calm (front ++ .symbol mark :: pieces)) : Calm (front ++ pieces) := by
  generalize whole : front ++ .symbol mark :: pieces = all at calm
  induction calm generalizing front with
  | nil => simp at whole
  | slash behind ih =>
      match front with
      | [] =>
          cases whole
          contradiction
      | [first] => cases whole
      | first :: second :: rest =>
          cases whole
          exact .slash (ih rfl)
  | piece calm behind ih =>
      cases front with
      | nil =>
          cases whole
          exact behind
      | cons first rest =>
          cases whole
          exact .piece calm (ih rfl)

/-- The text of a calm layout has an opening parenthesis for each of its pieces that is one. -/
theorem opened (calm : Calm pieces) :
    Opened (pieces.count (.symbol .leftParen)) (Piece.write pieces) := by
  induction calm with
  | nil => exact .nil
  | slash behind ih => exact .slash ih
  | @piece piece pieces calm behind ih =>
      cases piece with
      | word text =>
          exact ih.append_plain fun c member =>
            isPlain_of_isNamePart (isNamePart_of_isName calm c member)
      | number value =>
          exact ih.append_plain fun c member =>
            isPlain_of_isNamePart (isNamePart_of_mem_number value c member)
      | string content => exact .string _ ih
      | blank => exact .plain rfl ih
      | symbol mark =>
          by_cases paren : mark = .leftParen
          · subst paren
            rw [List.count_cons_self]
            exact .paren ih
          · rw [List.count_cons_of_ne (by simpa using paren)]
            exact ih.append_plain fun c member => Lexeme.isPlain_of_mem_chars paren calm member

/-! ### Layouts of trees -/

section Lists

variable {trees : List Expr} {entries : List (Field Expr)}

theorem further (each : ∀ tree ∈ trees, Calm tree.layout) : Calm (Expr.layoutOfFurther trees) := by
  induction trees with
  | nil => exact symbol (by decide) .nil
  | cons next rest ih =>
      obtain ⟨first, others⟩ := List.forall_mem_cons.mp each
      rw [Expr.layoutOfFurther, List.append_assoc]
      exact symbol (by decide) (blank (first.append (ih others)))

theorem arguments (each : ∀ tree ∈ trees, Calm tree.layout) :
    Calm (Expr.layoutOfArguments trees) := by
  cases trees with
  | nil => exact symbol (by decide) (symbol (by decide) .nil)
  | cons first rest =>
      obtain ⟨single, others⟩ := List.forall_mem_cons.mp each
      exact symbol (by decide) (single.append (further others))

theorem field {entry : Field Expr} (usable : UsableName entry.name.text)
    (value : Calm entry.initializer.layout) (behind : Calm pieces) :
    Calm (.word entry.name.text :: .symbol .colon :: .blank ::
      (entry.initializer.layout ++ pieces)) :=
  word usable.1 (symbol (by decide) (blank (value.append behind)))

theorem furtherFields
    (each : ∀ entry ∈ entries, UsableName entry.name.text ∧ Calm entry.initializer.layout) :
    Calm (Expr.layoutOfFurtherFields entries) := by
  induction entries with
  | nil => exact blank (symbol (by decide) .nil)
  | cons next rest ih =>
      obtain ⟨⟨usable, value⟩, others⟩ := List.forall_mem_cons.mp each
      exact symbol (by decide) (blank (field usable value (ih others)))

theorem fields
    (each : ∀ entry ∈ entries, UsableName entry.name.text ∧ Calm entry.initializer.layout) :
    Calm (Expr.layoutOfFields entries) := by
  cases entries with
  | nil => exact symbol (by decide) (symbol (by decide) .nil)
  | cons first rest =>
      obtain ⟨⟨usable, value⟩, others⟩ := List.forall_mem_cons.mp each
      exact symbol (by decide) (blank (field usable value (furtherFields others)))

end Lists

theorem layout {tree : Expr} (named : tree.WellNamed) : Calm tree.layout := by
  induction tree using Expr.induct with
  | number | string => exact .piece trivial .nil
  | boolean value => cases value <;> exact word rfl .nil
  | null => exact word rfl .nil
  | identifier name => exact word (Expr.wellNamed_identifier.mp named).1 .nil
  | twoNots operand near far ih =>
      have inner := ih (Expr.wellNamed_unary.mp (Expr.wellNamed_unary.mp named))
      exact symbol (by decide) (symbol (by decide) (inner.operand _ _))
  | unary op operand info single ih =>
      have inner := ih (Expr.wellNamed_unary.mp named)
      have noSlash : op.symbol ≠ .slash := by cases op <;> decide
      rw [Expr.layout]
      split
      · exact (inner.operand _ _).append (symbol noSlash .nil)
      · exact symbol noSlash (inner.operand _ _)
  | binary op left right info former latter =>
      obtain ⟨namedLeft, namedRight⟩ := Expr.wellNamed_binary.mp named
      exact (((former namedLeft).operand _ _).append (spaced _)).append
        ((latter namedRight).operand _ _)
  | conditional condition consequent alternative info first second third =>
      obtain ⟨namedFirst, namedSecond, namedThird⟩ := Expr.wellNamed_conditional.mp named
      have front := (first namedFirst).operand Precedence.loosestBinary condition.precedence
      have middle := (second namedSecond).operand Precedence.loosestBinary consequent.precedence
      have back := (third namedThird).operand Precedence.conditional alternative.precedence
      exact (((front.append (spaced _)).append middle).append (spaced _)).append back
  | initOf contract arguments info ih =>
      obtain ⟨usable, each⟩ := Expr.wellNamed_initOf.mp named
      have list := Calm.arguments fun argument member => ih argument member (each argument member)
      exact word rfl (blank (word usable.1 list))
  | methodCall receiver method arguments info ih given =>
      obtain ⟨namedReceiver, usable, each⟩ := Expr.wellNamed_methodCall.mp named
      have list := Calm.arguments fun argument member =>
        given argument member (each argument member)
      exact ((ih namedReceiver).operand _ _).append (symbol (by decide) (word usable.1 list))
  | fieldAccess aggregate field info ih =>
      obtain ⟨namedAggregate, usable⟩ := Expr.wellNamed_fieldAccess.mp named
      exact ((ih namedAggregate).operand _ _).append (symbol (by decide) (word usable.1 .nil))
  | call function arguments info ih =>
      obtain ⟨usable, each⟩ := Expr.wellNamed_call.mp named
      have list := Calm.arguments fun argument member => ih argument member (each argument member)
      exact word usable.1 list
  | structInstance type fields info ih =>
      obtain ⟨usable, each⟩ := Expr.wellNamed_structInstance.mp named
      have list := Calm.fields fun field member =>
        ⟨(each field member).1, ih field member (each field member).2⟩
      exact word usable.1 (blank list)

end Calm

/-! ## Sources -/

namespace Expr

def openingsOf (source : String) : Nat := openings ((tokenize source).map Token.kind)

theorem openings_significantKinds (source : String) :
    openings (significantKinds source) = openingsOf source :=
  List.count_filter rfl

theorem openingsOf_render {tree : Expr} (named : tree.WellNamed) :
    openingsOf tree.render = openings tree.kinds := by
  rw [← openings_significantKinds, significantKinds_render named]
  simp

theorem openingsOf_write {pieces : List Piece} (calm : Calm pieces) :
    openingsOf (String.ofList (Piece.write pieces)) = pieces.count (.symbol .leftParen) := by
  rw [openingsOf, map_kind_tokenize, String.toList_ofList, calm.opened.openings_kindsOf]

/-- A tree is written with no more opening parentheses than any source that is read as it. -/
theorem openingsOf_render_le {source : String} {tree : Expr} (read : parse source = .ok tree) :
    openingsOf tree.render ≤ openingsOf source := by
  obtain ⟨kinds, shape, derived⟩ := derives_of_parse read
  rw [openingsOf_render (wellNamed_of_derives shape derived), ← openings_significantKinds, shape]
  simpa [Phrase.kinds] using derived.openings_le

/-- A rendering without a pair of its parentheses has one that opens less. -/
theorem openingsOf_without_pair {tree : Expr} (named : tree.WellNamed)
    {before inner behind : List Piece}
    (shape : tree.layout =
      before ++ .symbol .leftParen :: (inner ++ .symbol .rightParen :: behind)) :
    openingsOf (String.ofList (Piece.write (before ++ inner ++ behind))) + 1 =
      openingsOf tree.render := by
  have calm := Calm.layout named
  have whole : openingsOf tree.render = tree.layout.count (.symbol .leftParen) :=
    openingsOf_write calm
  rw [shape] at calm
  have opened := calm.without (by decide)
  rw [← List.append_assoc] at opened
  have other : Piece.symbol .rightParen ≠ .symbol .leftParen := by decide
  rw [whole, shape, openingsOf_write (opened.without (by decide))]
  simp only [List.count_append, List.count_cons_self, List.count_cons_of_ne other]
  omega

/-- A rendering has the fewest opening parentheses of all sources that are read as its tree. With
fewer of them, and so with any pair of its parentheses left out, a text is read as another tree or
not at all. -/
theorem render_fewest_openings {source : String} {tree : Expr} (read : parse source = .ok tree) :
    openingsOf tree.render ≤ openingsOf source ∧
      (∀ other reread, openingsOf other < openingsOf tree.render → parse other = .ok reread →
        reread.alike tree = false) ∧
      ∀ before inner behind,
        tree.layout = before ++ .symbol .leftParen :: (inner ++ .symbol .rightParen :: behind) →
        ∀ reread, parse (String.ofList (Piece.write (before ++ inner ++ behind))) = .ok reread →
          reread.alike tree = false := by
  have fewer : ∀ other reread, openingsOf other < openingsOf tree.render →
      parse other = .ok reread → reread.alike tree = false := by
    intro other reread less parsed
    apply Bool.eq_false_iff.mpr
    intro same
    have least := openingsOf_render_le parsed
    rw [render_eq_of_alike same] at least
    omega
  refine ⟨openingsOf_render_le read, fewer, ?_⟩
  intro before inner behind shape reread parsed
  obtain ⟨kinds, tokens, derived⟩ := derives_of_parse read
  have less := openingsOf_without_pair (wellNamed_of_derives tokens derived) shape
  exact fewer _ reread (by omega) parsed

/-- The parentheses around a sum that is multiplied are needed. -/
theorem render_fewest_openings_product :
    ∃ read, parse "(a + b) * c" = .ok read ∧ read.render = "(a + b) * c" ∧
      ∀ reread, parse "a + b * c" = .ok reread → reread.alike read = false := by
  let name (text : String) := identifier text Info.built
  let tree := binary .multiply (binary .add (name "a") (name "b") Info.built) (name "c") Info.built
  have named : tree.WellNamed := by
    have usable : UsableName "a" ∧ UsableName "b" ∧ UsableName "c" :=
      ⟨⟨by decide, by decide⟩, ⟨by decide, by decide⟩, by decide, by decide⟩
    simpa [tree, name, WellNamed] using usable
  have text : tree.render = "(a + b) * c" := rfl
  obtain ⟨read, parsed, same⟩ := parse_render named (by decide)
  rw [text] at parsed
  let sum : List Piece := [.word "a", .blank, .symbol .plus, .blank, .word "b"]
  let behind : List Piece := [.blank, .symbol .star, .blank, .word "c"]
  have layout : read.layout =
      [] ++ .symbol .leftParen :: (sum ++ .symbol .rightParen :: behind) :=
    layout_eq_of_alike same
  have dropped : String.ofList (Piece.write ([] ++ sum ++ behind)) = "a + b * c" := rfl
  have lost := (render_fewest_openings parsed).2.2 [] sum behind layout
  rw [dropped] at lost
  exact ⟨read, parsed, (render_eq_of_alike same).trans text, lost⟩

end Expr

end ContractExpr
