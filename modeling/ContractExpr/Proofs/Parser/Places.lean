import ContractExpr.Proofs.Grammar.Places
import ContractExpr.Proofs.Parser.Exactness
import ContractExpr.Proofs.Token.Tiling

/-! # Where the nodes of a tree stand in its source

Every node of a tree that was read from a source reaches from the start of a token to the end of a
token, with the line and column of its first character. It covers its children, and these follow
each other as they are written.
-/

set_option autoImplicit false

namespace ContractExpr

open Token Grammar

/-! ## Tokens in order -/

namespace Tiled

variable {before text : List Char} {tokens : List Token}

theorem front_le_line (tiled : Tiled before text tokens) :
    ∀ token ∈ tokens, (Position.start.advance before).line ≤ token.span.line := by
  intro token member
  obtain ⟨front, inside, behind, placed⟩ := tiled.placed token member
  rw [placed.span]
  exact Position.line_le before front

theorem lines (tiled : Tiled before text tokens) :
    tokens.Pairwise fun earlier later => earlier.span.line ≤ later.span.line := by
  induction tiled with
  | last => exact List.pairwise_singleton _ _
  | @more before text token tokens gap inside rest whole blank begins read noEnd span behind ih =>
      refine List.pairwise_cons.mpr ⟨fun later member => ?_, ih⟩
      rw [span]
      exact Nat.le_trans (Position.line_le (before ++ gap) inside)
        (behind.front_le_line later member)

theorem inOrder (tiled : Tiled before text tokens) {part : List Token}
    (inside : part.Sublist tokens) (more : ∀ token ∈ part, token.kind.isEnd = false) : InOrder part where
  filled := by
    intro span member
    obtain ⟨token, inPart, rfl⟩ := List.mem_map.mp member
    obtain ⟨front, inside, behind, placed⟩ := tiled.placed token (inside.subset inPart)
    exact placed.start_lt_stop (more token inPart)
  ordered := by
    have both := (tiled.ordered.and tiled.lines).sublist inside
    exact List.pairwise_map.mpr (both.imp fun facts => ⟨facts.1.2, facts.2⟩)

end Tiled

theorem inOrder_of_ofSource {source : String} {tokens : List Token} {last : Token}
    (whole : (Cursor.ofSource source).rest = tokens ++ [last]) :
    InOrder tokens := by
  have tiled : Tiled [] source.toList (tokenize source) := (Reader.ofString source).tiled [] rfl
  have inside : tokens.Sublist (tokenize source) := by
    have significant : (tokens ++ [last]).Sublist (tokenize source) := by
      rw [← whole]
      exact List.filter_sublist
    exact (List.sublist_append_left _ _).trans significant
  refine tiled.inOrder inside ?_
  obtain ⟨earlier, final, split, _, noEnd⟩ := Cursor.ofSource_endsOnce source
  obtain ⟨rfl, _⟩ := List.append_inj' (whole.symm.trans split) rfl
  exact noEnd

/-! ## Nodes in their source -/

/-- The node stands in the source between two tokens, around its children, which follow each
other. Columns count characters from the last line break on. -/
structure Node.Stands (source : String) (node : Node) : Prop where
  nonempty : node.span.start < node.span.stop
  begins : ∃ token ∈ tokenize source, token.kind.isComment = false ∧
    token.span.start = node.span.start
  ends : ∃ token ∈ tokenize source, token.kind.isComment = false ∧
    token.span.stop = node.span.stop
  line : node.span.line = 1 + (node.span.front source).toList.count '\n'
  column : node.span.column = 1 + Position.lastLineLength (node.span.front source).toList
  covers : ∀ child ∈ node.children,
    node.span.start ≤ child.span.start ∧ child.span.stop ≤ node.span.stop
  /-- Only a field that is written by its name alone has children in one place. -/
  apart : (node.children.Pairwise fun earlier later => earlier.span.stop ≤ later.span.start) ∨
    node.IsShorthand

theorem Node.Lies.stands {source : String} {tokens : List Token} {node : Node}
    (lies : node.Lies tokens) (inside : tokens ⊆ (Cursor.ofSource source).rest) :
    node.Stands source := by
  have tiling := (tokenize_tiles source).1
  obtain ⟨⟨filled, ⟨first, inFirst, start, line, column⟩, last, inLast, stop⟩, covers, apart⟩ :=
    lies
  obtain ⟨firstToken, noComment⟩ := List.mem_filter.mp (inside inFirst)
  obtain ⟨lastToken, noComment'⟩ := List.mem_filter.mp (inside inLast)
  have front : first.span.front source = node.span.front source := by
    rw [Span.front, Span.front, start]
  exact {
    nonempty := filled
    begins := ⟨first, firstToken, by simpa using noComment, start⟩
    ends := ⟨last, lastToken, by simpa using noComment', stop⟩
    line := by rw [← line, tiling.line first firstToken, front]
    column := by rw [← column, tiling.column first firstToken, front]
    covers := covers
    apart := by
      refine apart.imp_left fun ordered => ?_
      exact (List.pairwise_map.mp ordered).imp fun before => before.apart }

namespace Expr

theorem parse_places {source : String} {tree : Expr} (read : parse source = .ok tree) :
    ∀ node ∈ tree.nodes, node.Stands source := by
  obtain ⟨tokens, last, next, whole, isEnd, built⟩ := builds_of_parse read
  have laid := built.laid (inOrder_of_ofSource whole)
  intro node member
  have inTree : node ∈ [Node.expression tree].flatMap Node.finished := by
    simpa [Node.finished] using tree.finished_perm_nodes.mem_iff.mpr member
  refine (laid.each node inTree).stands ?_
  rw [whole]
  exact List.subset_append_left _ _

/-- A group in front of an operator on the next line, and a field without a value. -/
theorem parse_places_twoLines :
    ∃ tree, parse "(a) // b\n- P{G}" = .ok tree ∧
      tree.nodes.map Node.span =
        [⟨1, 15, 1, 2⟩, ⟨1, 2, 1, 2⟩, ⟨11, 15, 2, 3⟩, ⟨11, 12, 2, 3⟩, ⟨13, 14, 2, 5⟩, ⟨13, 14, 2, 5⟩,
          ⟨13, 14, 2, 5⟩] ∧
      ∀ node ∈ tree.nodes, node.Stands "(a) // b\n- P{G}" := by
  let source := "(a) // b\n- P{G}"
  have spans : ((parse source).toOption.map fun tree => tree.nodes.map Node.span) =
      some [⟨1, 15, 1, 2⟩, ⟨1, 2, 1, 2⟩, ⟨11, 15, 2, 3⟩, ⟨11, 12, 2, 3⟩, ⟨13, 14, 2, 5⟩,
        ⟨13, 14, 2, 5⟩, ⟨13, 14, 2, 5⟩] := by
    decide +kernel
  obtain ⟨tree, read, places⟩ := exists_ok_of_toOption spans
  exact ⟨tree, read, places, parse_places read⟩

end Expr
end ContractExpr
