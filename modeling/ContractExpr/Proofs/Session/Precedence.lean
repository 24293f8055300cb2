import ContractExpr.Proofs.Grammar.Openings
import ContractExpr.Proofs.Roundtrip.Rendering
import ContractExpr.Proofs.Session.Levels

/-! # Written and read strengths agree

A tree is written without parentheses in a place of some strength exactly where the function that
reads operators of at least this strength reads the whole of it. So the strengths that decide on
parentheses are those that decide on what is read.
-/

set_option autoImplicit false

namespace ContractExpr

open Token Grammar

/-- Without parentheses around it a tree stands only in a place that is not too strong for it. -/
theorem Grammar.derives_chain_iff {brief : Bool} {tree : Expr} {least left : Nat}
    (lower : Precedence.loosestBinary ≤ least) (upper : least ≤ Precedence.sign)
    (fits : tree.inside ≤ left) :
    Derives brief left (.chain least tree) tree.kinds ↔ least ≤ tree.precedence := by
  constructor
  · intro derived
    -- in a place too strong for it the tree has a parenthesis more than it is written with
    have opened : openings (grouped least tree.precedence tree.kinds) ≤ openings tree.kinds :=
      derived.openings_le
    rw [openings_grouped] at opened
    by_contra weak
    rw [if_pos (Nat.lt_of_not_le weak)] at opened
    omega
  · intro strong
    have place : ¬tree.precedence < least := Nat.not_lt_of_le strong
    have enough : groupedLevels least tree.precedence tree.inside ≤ left := by
      rwa [groupedLevels, if_neg place]
    have derived := (spelled brief tree).chain lower upper enough
    rwa [grouped, if_neg place] at derived

def closers : List Kind :=
  [.symbol .rightParen, .symbol .comma, .symbol .rightBrace, .symbol .colon, .symbol .question,
   .endOfInput]

theorem endsChain_of_mem_closers {closer : Kind} (closes : closer ∈ closers) {least : Nat}
    (lower : Precedence.loosestBinary ≤ least) : Parser.EndsChain least closer := by
  simp only [closers, List.mem_cons, List.not_mem_nil, or_false] at closes
  rcases closes with rfl | rfl | rfl | rfl | rfl | rfl
  · exact Parser.endsExpression_rightParen.toEndsChain.mono lower
  · exact Parser.endsExpression_comma.toEndsChain.mono lower
  · exact Parser.endsExpression_rightBrace.toEndsChain.mono lower
  · exact Parser.endsChain_colon least
  · exact Parser.endsChain_question least
  · exact Parser.endsExpression_end.toEndsChain.mono lower

namespace Descent

/-- From the session the function reads the tree, up to what nodes carry, and stops where tokens of
these kinds are left. -/
def Reads (function : Descent Expr) (session : Session) (tree : Expr) (left : List Kind) : Prop :=
  ∃ read after, function session = .ok read after ∧ read.alike tree = true ∧
    after.tokens = session.tokens ∧ after.rest.map Token.kind = left

section Chain

variable {session : Session} {left least : Nat}

theorem binary_mirrors (offset left : Nat) (bound : least ≤ Precedence.sign) :
    Mirrors offset left (Mirrors.Tree offset)
      (Parser.binary (Parser.Level.withLeft left).operand least)
      ((Calls.within callDepth).binary least) := by
  have closed : (Calls.within callDepth).outer = .within callDepth := Calls.outer_eq_iff.mpr rfl
  exact Mirrors.binary_of_closed closed (Mirrors.level closed left).2 least Precedence.sign bound
    (Nat.le_add_left _ _)

/-- Operands and the operators between them are read as the grammar has them. -/
theorem reads_binary_iff_derives {tree : Expr} {kinds behind : List Kind} {closer : Kind}
    (level : session.nesting + left = Parser.nestingLimit) (bound : least ≤ Precedence.sign)
    (ends : Parser.EndsChain least closer)
    (shape : session.rest.map Token.kind = kinds ++ closer :: behind) :
    Reads ((Calls.within callDepth).binary least) session tree (closer :: behind) ↔
      Derives true left (.chain least tree) kinds := by
  have mirrors := binary_mirrors 0 left bound
  constructor
  · rintro ⟨read, after, ok, same, _, stopped⟩
    obtain ⟨cursor, accepted, leads⟩ := mirrors.accepted_of_ok level ok
    obtain ⟨tokens, whole, built⟩ := Parser.binary_building
      (Parser.withLeft_building left).2 least bound _ _ _ accepted
    have taken : session.rest = tokens ++ after.rest := by
      rw [leads.rest]
      exact whole
    rw [taken, List.map_append, stopped, List.append_cancel_right_eq] at shape
    rw [← shape]
    exact built.derives.alike (.chain least same)
  · intro derived
    obtain ⟨taken, later, whole, run, laterKinds⟩ := List.map_eq_append_iff.mp shape
    have front : frontKind later = closer := frontKind_of_map_cons laterKinds
    obtain ⟨read, nextId, accepted, same⟩ := (Parser.completed derived).completes
      (session.cursor session.nextId) later ⟨taken, whole, run⟩ (front ▸ ends)
    obtain ⟨after, ok, leads⟩ := mirrors.ok_of_accepted level accepted
    refine ⟨read, after, ok, same, leads.tokens, ?_⟩
    rw [leads.rest]
    exact laterKinds

/-- The function for operators of at least some strength reads a tree from its text, written without
parentheses around it, exactly when the tree has this strength. The text may stand in any session
with levels enough for what is inside the tree. -/
theorem binary_reads_iff {tree : Expr} {closer : Kind} {behind : List Kind}
    (named : tree.WellNamed) (fits : session.nesting + tree.inside ≤ Parser.nestingLimit)
    (lower : Precedence.loosestBinary ≤ least) (upper : least ≤ Precedence.sign)
    (closes : closer ∈ closers)
    (shape : session.rest.map Token.kind =
      (significantKinds tree.render).dropLast ++ closer :: behind) :
    Reads ((Calls.within callDepth).binary least) session tree (closer :: behind) ↔
      least ≤ tree.precedence := by
  rw [Expr.significantKinds_render named, List.dropLast_concat] at shape
  obtain ⟨spare, level⟩ := Nat.exists_eq_add_of_le fits
  have levels : session.nesting + (tree.inside + spare) = Parser.nestingLimit := by omega
  rw [reads_binary_iff_derives levels upper (endsChain_of_mem_closers closes lower) shape]
  exact derives_chain_iff lower upper (Nat.le_add_right _ _)

end Chain

/-- A sum with a conditional and a product in it is read where operators as strong as a plus are
asked for, and not where stronger ones are. -/
theorem binary_reads_sum :
    let session := Session.ofSource "(a ? b : c) + -d * e, f"
    let name (text : String) := Expr.identifier text Info.built
    let condition := Expr.conditional (name "a") (name "b") (name "c") Info.built
    let product := Expr.binary .multiply (.unary .negate (name "d") Info.built) (name "e") Info.built
    let tree := Expr.binary .add condition product Info.built
    Reads ((Calls.within callDepth).binary 10) session tree
        [.symbol .comma, .name "f", .endOfInput] ∧
      ¬Reads ((Calls.within callDepth).binary 11) session tree
        [.symbol .comma, .name "f", .endOfInput] := by
  intro session name condition product tree
  have named : tree.WellNamed := by
    have usable : ∀ word ∈ ["a", "b", "c", "d", "e"], UsableName word := by
      simp only [List.forall_mem_cons, UsableName]
      decide
    exact usable
  have shape : session.rest.map Token.kind = (significantKinds tree.render).dropLast ++
      .symbol .comma :: [.name "f", .endOfInput] := by decide +kernel
  have reads (least : Nat) (lower : Precedence.loosestBinary ≤ least)
      (upper : least ≤ Precedence.sign) :=
    binary_reads_iff named (by decide : session.nesting + tree.inside ≤ Parser.nestingLimit) lower
      upper (by decide : Token.Kind.symbol .comma ∈ closers) shape
  exact ⟨(reads 10 (by decide) (by decide)).mpr (by decide),
    fun read => absurd ((reads 11 (by decide) (by decide)).mp read) (by decide)⟩

end Descent
end ContractExpr
