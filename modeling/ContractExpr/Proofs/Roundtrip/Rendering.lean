import ContractExpr.Proofs.Expr.Rendering
import ContractExpr.Proofs.Expr.Spelling
import ContractExpr.Proofs.Grammar.Colons
import ContractExpr.Proofs.Grammar.Levels
import ContractExpr.Proofs.Parser.Exactness
import ContractExpr.Proofs.Parser.NestingLimit

/-! # Renderings parsed back

The rendering of a well-named tree parses as a tree alike to it when the tree opens no more levels
than the limit allows, and fails because of the nesting when it opens more.
-/

set_option autoImplicit false

namespace ContractExpr

open Token Grammar

namespace Grammar

/-- Tokens stand for one tree only, whatever the levels left. -/
theorem alike_of_derives {brief brief' : Bool} {left left' : Nat} {tree other : Expr}
    {kinds : List Kind} (derived : Derives brief left (.expression tree) kinds)
    (derived' : Derives brief' left' (.expression other) kinds) : tree.alike other = true := by
  let tokens := kinds.map fun kind => Token.mk kind Span.placeholder
  have between : Between tokens kinds [] := ⟨tokens, by simp, by simp [tokens, Function.comp_def]⟩
  obtain ⟨value, nextId, accepted, same⟩ :=
    Parser.completed derived ⟨tokens, 1⟩ [] between Parser.endsExpression_end
  obtain ⟨value', nextId', accepted', same'⟩ :=
    Parser.completed derived' ⟨tokens, 1⟩ [] between Parser.endsExpression_end
  -- both runs are runs with the levels of both
  have high := (Parser.withLeft_restricts (Nat.le_max_left left left')).accepted accepted
  have high' := (Parser.withLeft_restricts (Nat.le_max_right left left')).accepted accepted'
  rw [high] at high'
  cases high'
  exact Expr.alike_trans (Expr.alike_symm same) same'

end Grammar

namespace Expr

theorem wellNamed_of_derives {source : String} {tree : Expr} {kinds : List Kind} {brief : Bool}
    {left : Nat} (shape : significantKinds source = kinds ++ [.endOfInput])
    (derived : Derives brief left (.expression tree) kinds) : tree.WellNamed := by
  have inSource : kinds ⊆ kindsOf source.toList := by
    intro kind member
    apply significantKinds_subset
    rw [shape]
    exact List.mem_append_left _ member
  exact derived.wellNamed inSource

theorem wellNamed_of_parse {source : String} {tree : Expr} (read : parse source = .ok tree) :
    tree.WellNamed := by
  obtain ⟨kinds, shape, derived⟩ := derives_of_parse read
  exact wellNamed_of_derives shape derived

/-- The tokens of a rendering with more text behind it are those of the tree and those of the text,
when the text does not go on with a word. -/
theorem significantKinds_render_append {tree : Expr} (named : tree.WellNamed) (behind : String)
    (ends : EndsWord behind.toList) :
    significantKinds (tree.render ++ behind) = tree.kinds ++ significantKinds behind := by
  have kept : tree.kinds.filter (fun kind => !kind.isComment) = tree.kinds := by
    apply List.filter_eq_self.mpr
    intro kind member
    simp [((derives_kinds tree).significant kind member).1]
  have read := readsAs_layout named behind.toList ends
  rw [significantKinds, significantKinds, map_kind_tokenize, map_kind_tokenize,
    String.toList_append, render, String.toList_ofList, read, List.filter_append, kept]

theorem significantKinds_render {tree : Expr} (named : tree.WellNamed) :
    significantKinds tree.render = tree.kinds ++ [.endOfInput] := by
  have shape := significantKinds_render_append named "" endsWord_nil
  have none : significantKinds "" = [.endOfInput] := significantKinds_blanks (by simp)
  rwa [String.append_empty, none] at shape

theorem parse_render {tree : Expr} (named : tree.WellNamed)
    (fits : tree.levels ≤ Parser.nestingLimit) :
    ∃ read, parse tree.render = .ok read ∧ read.alike tree = true := by
  have derived := (spelled false tree).whole Parser.nestingLimit fits
  exact parse_of_derives (significantKinds_render named) derived

theorem levels_le_of_alike {tree other : Expr} (same : tree.alike other = true) :
    other.levels ≤ tree.levels := by
  have derived := (derives_kinds tree).alike (.expression same)
  exact derived.levels_le

theorem levels_eq_of_alike {tree other : Expr} (same : tree.alike other = true) :
    tree.levels = other.levels :=
  Nat.le_antisymm (levels_le_of_alike (alike_symm same)) (levels_le_of_alike same)

theorem levels_le_of_accepted {tree read : Expr} {left : Nat} {after : Cursor}
    (named : tree.WellNamed)
    (accepted : (Parser.complete (Parser.expressionWithin left)).run
      (Cursor.ofSource tree.render) = .accepted read after) : tree.levels ≤ left := by
  obtain ⟨kinds, shape, derived⟩ := derives_of_accepted accepted
  rw [significantKinds_render named, List.append_cancel_right_eq] at shape
  subst shape
  have same := alike_of_derives derived (derives_kinds tree)
  have derivedTree := derived.alike (.expression same)
  exact derivedTree.strict_of_kinds.levels_le

theorem levels_le_of_parse {tree read : Expr} (named : tree.WellNamed)
    (parsed : parse tree.render = .ok read) : tree.levels ≤ Parser.nestingLimit := by
  obtain ⟨after, accepted⟩ := parse_eq_ok.mp parsed
  exact levels_le_of_accepted named accepted

/-- The rendering of a well-named tree fails for no reason but the nesting. -/
theorem parse_render_fails {tree : Expr} (named : tree.WellNamed)
    (deep : Parser.nestingLimit < tree.levels) :
    ∃ error, parse tree.render = .error error ∧ error.cause = .nestedTooDeeply := by
  obtain ⟨read, after, accepted, _⟩ :=
    accepted_of_derives (significantKinds_render named) (derives_kinds tree)
  have restricts := Parser.complete_restricts (Nat.le_of_lt deep)
  rcases restricts (Cursor.ofSource tree.render) with same | ⟨error, after', refused, nested⟩
  · have parsed := parse_eq_ok.mpr ⟨after, same.trans accepted⟩
    exact absurd (levels_le_of_parse named parsed) (Nat.not_le_of_lt deep)
  · refine ⟨error, ?_, nested⟩
    have failed : Parser.input.run (Cursor.ofSource tree.render) = .refused error after' := refused
    rw [parse, failed]
    rfl

end Expr
end ContractExpr
