import ContractExpr.Parser.Session
import ContractExpr.Proofs.Grammar.Relabel
import ContractExpr.Proofs.Parser.Building
import ContractExpr.Proofs.Parser.Completeness
import ContractExpr.Proofs.Token.Kinds

/-! # The parser accepts its grammar

A source is accepted as a tree exactly when its tokens, comments left out, stand for the tree in the
grammar with no more levels open at once than the limit allows.
-/

set_option autoImplicit false

namespace ContractExpr

open Token Grammar

def significantKinds (source : String) : List Kind :=
  ((tokenize source).map Token.kind).filter fun kind => !kind.isComment

theorem map_kind_ofSource (source : String) :
    (Cursor.ofSource source).rest.map Token.kind = significantKinds source := by
  rw [significantKinds, List.filter_map]
  rfl

theorem significantKinds_subset (source : String) :
    significantKinds source ⊆ kindsOf source.toList := by
  rw [← map_kind_tokenize]
  exact List.filter_sublist.subset

theorem significantKinds_blanks {source : String}
    (blank : ∀ c ∈ source.toList, Text.isBlank c = true) :
    significantKinds source = [.endOfInput] := by
  have none := kindsOf_blanks blank []
  rw [List.append_nil, kindsOf_nil] at none
  rw [significantKinds, map_kind_tokenize, none]
  rfl

/-- The end token is the last one, and there is no other. -/
theorem significantKinds_eq_append (source : String) :
    ∃ kinds, significantKinds source = kinds ++ [.endOfInput] ∧ .endOfInput ∉ kinds := by
  obtain ⟨kinds, whole, noEnd⟩ := kindsOf_eq_append source.toList
  refine ⟨kinds.filter fun kind => !kind.isComment, ?_, ?_⟩
  · rw [significantKinds, map_kind_tokenize, whole, List.filter_append]
    rfl
  · intro member
    have isEnd := noEnd _ (List.mem_of_mem_filter member)
    cases isEnd

theorem exists_ok_of_toOption {ε α β : Type} {answer : Except ε α} {view : α → β} {value : β}
    (seen : answer.toOption.map view = some value) :
    ∃ given, answer = .ok given ∧ view given = value := by
  cases answer with
  | ok given => exact ⟨given, rfl, Option.some.inj seen⟩
  | error error => cases seen

namespace Parser

theorem accepted_complete {expression : Parser Expr} {cursor after : Cursor} {value : Expr}
    (accepted : (complete expression).run cursor = .accepted value after) :
    expression.run cursor = .accepted value after ∧ frontKind after.rest = .endOfInput := by
  obtain ⟨value', middle, begun, accepted⟩ := accepted_bind accepted
  rw [run_current_bind] at accepted
  by_cases isEnd : middle.current.kind.isEnd = true
  · rw [if_pos isEnd] at accepted
    cases accepted
    exact ⟨begun, Kind.eq_of_isEnd isEnd⟩
  · rw [if_neg isEnd] at accepted
    exact absurd accepted not_accepted_unexpected

theorem run_complete {expression : Parser Expr} {cursor after : Cursor} {value : Expr}
    (accepted : expression.run cursor = .accepted value after)
    (isEnd : frontKind after.rest = .endOfInput) :
    (complete expression).run cursor = .accepted value after := by
  rw [complete, run_bind_of_accepted accepted, run_current_bind, Cursor.current_kind, isEnd]
  rfl

theorem run_complete_of_symbol {expression : Parser Expr} {cursor after : Cursor} {value : Expr}
    {mark : Symbol} (accepted : expression.run cursor = .accepted value after)
    (more : frontKind after.rest = .symbol mark) :
    ∃ error, (complete expression).run cursor = .refused error after ∧
      error.cause = .unexpectedToken .endOfInput (.symbol mark) := by
  have noEnd : ¬(Kind.symbol mark).isEnd = true := Bool.false_ne_true
  rw [complete, run_bind_of_accepted accepted, run_current_bind, Cursor.current_kind, more,
    if_neg noEnd]
  refine ⟨⟨.unexpectedToken .endOfInput (.symbol mark), after.current.span⟩, ?_, rfl⟩
  rw [unexpected, run_current_bind, Cursor.current_kind, more]
  rfl

end Parser

namespace Expr

open ContractExpr.Parser

theorem parse_eq_ok {source : String} {tree : Expr} :
    parse source = .ok tree ↔
      ∃ after, input.run (Cursor.ofSource source) = .accepted tree after := by
  rw [parse]
  cases input.run (Cursor.ofSource source) <;> simp [Reply.toExcept]

/-- The tokens of a source that a parser accepts build the tree it is read as. -/
theorem builds_of_accepted {source : String} {tree : Expr} {left : Nat} {after : Cursor}
    (accepted : (complete (expressionWithin left)).run (Cursor.ofSource source) =
      .accepted tree after) :
    ∃ tokens last, (Cursor.ofSource source).rest = tokens ++ [last] ∧ last.kind = .endOfInput ∧
      Builds left (.expression tree) tokens 1 after.nextId := by
  obtain ⟨accepted, isEnd⟩ := accepted_complete accepted
  obtain ⟨tokens, whole, built⟩ := (withLeft_building left).1 _ _ _ accepted
  have inside : ∀ token ∈ tokens, token.kind.isEnd = false := fun token member =>
    (built.derives.significant _ (List.mem_map_of_mem member)).2
  obtain ⟨earlier, last, shape, lastIsEnd, noEnd⟩ := Cursor.ofSource_endsOnce source
  rw [whole] at shape
  rcases List.eq_nil_or_concat after.rest with none | ⟨others, final, rest⟩
  · rw [none, List.append_nil] at shape
    have more := inside last (by simp [shape])
    rw [lastIsEnd] at more
    cases more
  · rw [rest, List.concat_eq_append, ← List.append_assoc] at shape
    obtain ⟨front, same⟩ := List.append_inj' shape rfl
    cases same
    cases others with
    | nil =>
        refine ⟨tokens, last, ?_, Kind.eq_of_isEnd lastIsEnd, built⟩
        rw [whole, rest]
        rfl
    | cons token others =>
        have more := noEnd token (by simp [← front])
        rw [rest, List.concat_eq_append, List.cons_append, frontKind_cons] at isEnd
        rw [isEnd] at more
        cases more

theorem builds_of_parse {source : String} {tree : Expr} (read : parse source = .ok tree) :
    ∃ tokens last next, (Cursor.ofSource source).rest = tokens ++ [last] ∧
      last.kind = .endOfInput ∧ Builds nestingLimit (.expression tree) tokens 1 next := by
  obtain ⟨after, accepted⟩ := parse_eq_ok.mp read
  obtain ⟨tokens, last, whole, isEnd, built⟩ := builds_of_accepted accepted
  exact ⟨tokens, last, after.nextId, whole, isEnd, built⟩

theorem derives_of_accepted {source : String} {tree : Expr} {left : Nat} {after : Cursor}
    (accepted : (complete (expressionWithin left)).run (Cursor.ofSource source) =
      .accepted tree after) :
    ∃ kinds, significantKinds source = kinds ++ [.endOfInput] ∧
      Derives true left (.expression tree) kinds := by
  obtain ⟨tokens, last, whole, isEnd, built⟩ := builds_of_accepted accepted
  refine ⟨tokens.map Token.kind, ?_, built.derives⟩
  rw [← map_kind_ofSource, whole, List.map_append, List.map_singleton, isEnd]

theorem derives_of_parse {source : String} {tree : Expr} (read : parse source = .ok tree) :
    ∃ kinds, significantKinds source = kinds ++ [.endOfInput] ∧
      Derives true nestingLimit (.expression tree) kinds := by
  obtain ⟨after, accepted⟩ := parse_eq_ok.mp read
  exact derives_of_accepted accepted

/-- A parser with enough levels left reads the tree that the first tokens of a source stand for,
when no expression goes on with the token behind them. -/
theorem reads_of_derives {source : String} {tree : Expr} {kinds behind : List Kind} {kind : Kind}
    {brief : Bool} {left : Nat} (shape : significantKinds source = kinds ++ kind :: behind)
    (ends : EndsExpression kind) (derived : Derives brief left (.expression tree) kinds) :
    ∃ read after, (expressionWithin left).run (Cursor.ofSource source) = .accepted read after ∧
      read.alike tree = true ∧ frontKind after.rest = kind := by
  rw [← map_kind_ofSource] at shape
  obtain ⟨taken, later, whole, rfl, laterKinds⟩ := List.map_eq_append_iff.mp shape
  have front : frontKind later = kind := frontKind_of_map_cons laterKinds
  obtain ⟨read, nextId, accepted, same⟩ :=
    completed derived (Cursor.ofSource source) later ⟨taken, whole, rfl⟩ (front ▸ ends)
  exact ⟨read, _, accepted, same, front⟩

/-- A parser with enough levels left accepts a source whose tokens stand for a tree. -/
theorem accepted_of_derives {source : String} {tree : Expr} {kinds : List Kind} {brief : Bool}
    {left : Nat} (shape : significantKinds source = kinds ++ [.endOfInput])
    (derived : Derives brief left (.expression tree) kinds) :
    ∃ read after, (complete (expressionWithin left)).run (Cursor.ofSource source) =
      .accepted read after ∧ read.alike tree = true := by
  obtain ⟨read, after, accepted, same, isEnd⟩ :=
    reads_of_derives shape endsExpression_end derived
  exact ⟨read, after, run_complete accepted isEnd, same⟩

theorem parse_of_derives {source : String} {tree : Expr} {kinds : List Kind} {brief : Bool}
    (shape : significantKinds source = kinds ++ [.endOfInput])
    (derived : Derives brief nestingLimit (.expression tree) kinds) :
    ∃ read, parse source = .ok read ∧ read.alike tree = true := by
  obtain ⟨read, after, accepted, same⟩ := accepted_of_derives shape derived
  exact ⟨read, parse_eq_ok.mpr ⟨after, accepted⟩, same⟩

/-- The parser accepts a source as a tree exactly when the grammar does. -/
theorem parse_iff_derives (source : String) (tree : Expr) :
    (∃ read, parse source = .ok read ∧ read.alike tree = true) ↔
      ∃ kinds, significantKinds source = kinds ++ [.endOfInput] ∧
        Derives true nestingLimit (.expression tree) kinds := by
  constructor
  · rintro ⟨read, parsed, same⟩
    obtain ⟨kinds, shape, derived⟩ := derives_of_parse parsed
    exact ⟨kinds, shape, derived.alike (.expression same)⟩
  · rintro ⟨kinds, shape, derived⟩
    exact parse_of_derives shape derived

end Expr
end ContractExpr
