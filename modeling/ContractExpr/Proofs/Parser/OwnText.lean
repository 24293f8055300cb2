import ContractExpr.Proofs.Grammar.OwnTokens
import ContractExpr.Proofs.Parser.Grafting
import ContractExpr.Proofs.Parser.Places

/-! # Nodes read from their own text

The part of a source that a node covers is read as this node, when parentheses in the source only
hold the arguments of calls and `!!` only stands behind operands.
-/

set_option autoImplicit false

namespace ContractExpr

open Token Grammar

theorem Span.text_of_places {span : Span} {before inside behind : List Char}
    (start : span.start = String.utf8Len before)
    (stop : span.stop = String.utf8Len (before ++ inside)) :
    span.text (String.ofList (before ++ inside ++ behind)) = String.ofList inside := by
  rw [text, start, stop, String.utf8Len_append, String.extract_of_valid]

/-- The part of a source over which a span reaches has the tokens from the first to the last. -/
theorem significantKinds_text {source : String} {before inside behind : List Token} {span : Span}
    (whole : (Cursor.ofSource source).rest = before ++ inside ++ behind)
    (sound : ∀ token ∈ (Cursor.ofSource source).rest, token.kind.isMalformed = false)
    (more : ∀ token ∈ inside, token.kind.isEnd = false) (inOrder : InOrder inside)
    (spans : span.Spans inside) :
    significantKinds (span.text source) = inside.map Token.kind ++ [.endOfInput] := by
  obtain ⟨first, last, head, final, rfl⟩ := spans
  have isLast := List.mem_of_mem_getLast? final
  have leads : first.span.Leads last.span :=
    Span.InOrder.head_leads inOrder (by rw [List.head?_map, head]; rfl) _
      (List.mem_map_of_mem isLast)
  have inRest : last ∈ (Cursor.ofSource source).rest := by
    rw [whole]
    exact List.mem_append_left _ (List.mem_append_right _ isLast)
  have kept : (!last.kind.isComment) = true := (List.mem_filter.mp inRest).2
  obtain ⟨earlier, run, later, split, rfl, head, final⟩ :=
    exists_run_of_filter whole head final kept
  have tiled : Tiled [] source.toList (tokenize source) := (Reader.ofString source).tiled [] rfl
  obtain ⟨front, text, back, shape, start, stop, kinds⟩ := tiled.cut (sound_of_significant sound)
    split head final (by simpa using kept) (more last isLast)
  have covered : (first.span.merge last.span).text source = String.ofList text := by
    rw [leads.merge_eq, ← String.ofList_toList (s := source), shape]
    exact Span.text_of_places start stop
  rw [covered, significantKinds, map_kind_tokenize, String.toList_ofList, kinds,
    List.filter_append, List.filter_map]
  rfl

namespace Expr

open ContractExpr.Parser

/-- The text of every tree within a tree is read as this tree. -/
theorem parse_text {source : String} {tree : Expr} (read : parse source = .ok tree)
    (bare : isBare none (significantKinds source) = true) :
    ∀ expr, .expression expr ∈ tree.nodes →
      ∃ own, parse (expr.span.text source) = .ok own ∧ own.alike expr = true := by
  obtain ⟨tokens, last, next, whole, isEnd, built⟩ := builds_of_parse read
  have kinds : significantKinds source = tokens.map Token.kind ++ [last.kind] := by
    rw [← map_kind_ofSource, whole]
    simp
  rw [kinds, isBare_append, Bool.and_eq_true] at bare
  have run : Bare none tokens := ⟨inOrder_of_ofSource whole, bare.1⟩
  have owned := built.owned run (fun _ => rfl) (Nat.le_refl _)
  intro expr member
  have inTree : .expression expr ∈ [Node.expression tree].flatMap Node.finished := by
    simpa [Node.finished] using tree.finished_perm_nodes.mem_iff.mpr member
  obtain ⟨own, ⟨before, behind, inside⟩, spans, derived⟩ := owned.each expr inTree
  have around : (Cursor.ofSource source).rest = before ++ own ++ (behind ++ [last]) := by
    simp [whole, ← inside]
  have shape : significantKinds (expr.span.text source) = own.map Token.kind ++ [.endOfInput] := by
    refine significantKinds_text around (sound_of_parse read) (fun token member => ?_) ?_ spans
    · exact (derived.significant _ (List.mem_map_of_mem member)).2
    · exact run.inOrder.sublist (List.IsInfix.sublist ⟨before, behind, inside⟩)
  exact parse_of_derives shape derived

/-- A method call with a comment inside, between operators. -/
theorem parse_text_commented :
    ∃ tree, parse "a-b.m(x, // y\n S{f})!!-c" = .ok tree ∧
      (tree.nodes.filterMap fun | .expression expr => some expr | _ => none).map
          (fun expr => expr.span.text "a-b.m(x, // y\n S{f})!!-c") =
        ["a-b.m(x, // y\n S{f})!!-c", "a-b.m(x, // y\n S{f})!!", "a", "b.m(x, // y\n S{f})!!",
          "b.m(x, // y\n S{f})", "b", "x", "S{f}", "f", "c"] ∧
      ∀ expr, .expression expr ∈ tree.nodes →
        ∃ own, parse (expr.span.text "a-b.m(x, // y\n S{f})!!-c") = .ok own ∧
          own.alike expr = true := by
  let source := "a-b.m(x, // y\n S{f})!!-c"
  have texts : ((parse source).toOption.map fun tree =>
      (tree.nodes.filterMap fun | .expression expr => some expr | _ => none).map
        (fun expr => expr.span.text source)) =
      some ["a-b.m(x, // y\n S{f})!!-c", "a-b.m(x, // y\n S{f})!!", "a", "b.m(x, // y\n S{f})!!",
        "b.m(x, // y\n S{f})", "b", "x", "S{f}", "f", "c"] := by
    decide +kernel
  obtain ⟨tree, read, texts⟩ := exists_ok_of_toOption texts
  exact ⟨tree, read, texts, parse_text read (by decide +kernel)⟩

/-- A parenthesis around an operand is left out of a span in front and kept behind. -/
example : ((parse "(a)-b").toOption.map fun tree => tree.span.text "(a)-b") = some "a)-b" := by
  decide +kernel

/-- Two negations written as one token both begin where the token does. -/
example : ((parse "!!a").toOption.map fun tree =>
    (tree.nodes.map fun node => node.span.text "!!a")) = some ["!!a", "!!a", "a"] := by
  decide +kernel

end Expr
end ContractExpr
