import ContractExpr.Proofs.Grammar
import ContractExpr.Proofs.Parser.Steps

/-! # How a parser accepts

What it means that a parser takes tokens of given kinds, which tokens may stand behind a phrase so
that it ends there, and how lists are taken.
-/

set_option autoImplicit false

namespace ContractExpr.Parser

open Token Grammar

/-! ## What may stand behind a phrase -/

/-- A token that does not turn a name into a call or a struct instance. -/
structure EndsPrimary (kind : Kind) : Prop where
  noCall : kind ≠ .symbol .leftParen
  noStruct : kind ≠ .symbol .leftBrace

structure EndsOperand (kind : Kind) : Prop extends EndsPrimary kind where
  noSuffix : suffix? kind = none

/-- A token that does not go on with operators of at least the given strength. -/
structure EndsChain (least : Nat) (kind : Kind) : Prop extends EndsOperand kind where
  looser : ∀ op, kind.binaryOp? = some op → op.precedence < least

structure EndsExpression (kind : Kind) : Prop extends EndsChain Precedence.loosestBinary kind where
  noQuestion : kind ≠ .symbol .question

theorem EndsChain.mono {least more : Nat} {kind : Kind} (ends : EndsChain least kind)
    (weaker : least ≤ more) : EndsChain more kind :=
  ⟨ends.toEndsOperand, fun op isOperator => Nat.lt_of_lt_of_le (ends.looser op isOperator) weaker⟩

theorem operatorOf?_of_ends {least : Nat} {kind : Kind} (ends : EndsChain least kind) :
    operatorOf? least kind = none := by
  apply Option.filter_eq_none_iff.mpr
  intro op isOperator
  have looser := ends.looser op isOperator
  simp
  omega

theorem endsChain_of_operator (op : BinaryOp) :
    EndsChain (op.precedence + 1) (.symbol op.symbol) where
  noCall := by cases op <;> decide
  noStruct := by cases op <;> decide
  noSuffix := by cases op <;> rfl
  looser op' isOperator := by
    simp only [Kind.binaryOp?, binaryOp?_symbol, Option.some.injEq] at isOperator
    rw [isOperator]
    exact Nat.lt_succ_self _

theorem endsChain_of_mark {mark : Symbol} (least : Nat) (noOperator : mark.binaryOp? = none)
    (ends : EndsOperand (.symbol mark)) : EndsChain least (.symbol mark) := by
  refine ⟨ends, ?_⟩
  intro op isOperator
  simp [Kind.binaryOp?, noOperator] at isOperator

theorem endsChain_question (least : Nat) : EndsChain least (.symbol .question) :=
  endsChain_of_mark least rfl ⟨⟨by decide, by decide⟩, rfl⟩

theorem endsChain_colon (least : Nat) : EndsChain least (.symbol .colon) :=
  endsChain_of_mark least rfl ⟨⟨by decide, by decide⟩, rfl⟩

theorem endsExpression_comma : EndsExpression (.symbol .comma) :=
  ⟨endsChain_of_mark _ rfl ⟨⟨by decide, by decide⟩, rfl⟩, by decide⟩

theorem endsExpression_rightParen : EndsExpression (.symbol .rightParen) :=
  ⟨endsChain_of_mark _ rfl ⟨⟨by decide, by decide⟩, rfl⟩, by decide⟩

theorem endsExpression_rightBrace : EndsExpression (.symbol .rightBrace) :=
  ⟨endsChain_of_mark _ rfl ⟨⟨by decide, by decide⟩, rfl⟩, by decide⟩

theorem endsExpression_end : EndsExpression .endOfInput :=
  ⟨⟨⟨⟨by decide, by decide⟩, rfl⟩, fun _ isOperator => by cases isOperator⟩, by decide⟩

/-! ## Acceptance -/

/-- Behind tokens of these kinds the parser stands where they end, with a value of the given
sort, whenever the token there ends the form. -/
def Completes {α : Type} (parser : Parser α) (ends : Kind → Prop) (kinds : List Kind)
    (agrees : α → Prop) : Prop :=
  ∀ cursor rest, Between cursor.rest kinds rest → ends (frontKind rest) →
    ∃ value nextId, parser.run cursor = .accepted value ⟨rest, nextId⟩ ∧ agrees value

def CompletesLoop {γ : Type} (parser : Parser Expr) (continues : Kind → Option γ)
    (extend : Expr → γ → Token → Parser Expr) (ends : Kind → Prop) (kinds : List Kind)
    (agrees : Expr → Prop) : Prop :=
  ∀ cursor rest, Between cursor.rest kinds rest → ends (frontKind rest) →
    ∃ value nextId, parser.run cursor = extendRun continues extend value rest nextId ∧ agrees value

theorem completes_name (text : String) :
    Completes name (fun _ => True) [.name text] fun value => value.text = text := by
  intro cursor rest between _
  have isName : cursor.current.kind = .name text := frontKind_of_between between
  obtain rfl := (Cursor.advance_between between rfl).eq_of_nil
  unfold name
  rw [run_current_bind, isName]
  exact ⟨⟨text, ⟨cursor.advance.nextId, cursor.current.span⟩⟩, _, rfl, rfl⟩

theorem completes_expect (mark : Symbol) :
    Completes (expect mark) (fun _ => True) [.symbol mark] fun _ => True := by
  intro cursor rest between _
  have isMark := frontKind_of_between between
  obtain rfl := (Cursor.advance_between between rfl).eq_of_nil
  exact ⟨_, _, run_expect_of_eq isMark, trivial⟩

/-- One parser behind another takes their tokens one behind the other. -/
theorem Completes.bind {α β : Type} {first : Parser α} {next : α → Parser β}
    {ends ends' : Kind → Prop} {before behind : List Kind} {agrees : α → Prop} {agrees' : β → Prop}
    (former : Completes first ends before agrees)
    (latter : ∀ value, agrees value → Completes (next value) ends' behind agrees')
    (joins : ∀ tokens rest, Between tokens behind rest → ends' (frontKind rest) →
      ends (frontKind tokens)) :
    Completes (first >>= next) ends' (before ++ behind) agrees' := by
  intro cursor rest between ended
  obtain ⟨middle, begins, goesOn⟩ := between.split
  obtain ⟨value, nextId, accepted, meant⟩ :=
    former cursor middle begins (joins middle rest goesOn ended)
  obtain ⟨result, nextId', accepted', meant'⟩ :=
    latter value meant ⟨middle, nextId⟩ rest goesOn ended
  exact ⟨result, nextId', by rw [run_bind_of_accepted accepted, accepted'], meant'⟩

/-- A form that any token may follow needs no look at what comes behind. -/
theorem Completes.andThen {α β : Type} {first : Parser α} {next : α → Parser β}
    {ends : Kind → Prop} {before behind : List Kind} {agrees : α → Prop} {agrees' : β → Prop}
    (former : Completes first (fun _ => True) before agrees)
    (latter : ∀ value, agrees value → Completes (next value) ends behind agrees') :
    Completes (first >>= next) ends (before ++ behind) agrees' :=
  former.bind latter fun _ _ _ _ => trivial

theorem completes_node (make : Info → Expr) (span : Span) (ends : Kind → Prop) {tree : Expr}
    (same : ∀ info, (make info).alike tree = true) :
    Completes (do return make (← fresh span)) ends [] fun value => value.alike tree = true := by
  intro cursor rest between _
  obtain rfl := between.eq_of_nil
  exact ⟨make ⟨cursor.nextId, span⟩, cursor.nextId + 1, rfl, same _⟩

/-! ## Lists -/

section List

variable {α : Type} {close : Symbol} {single : Parser α} {agrees : α → α → Prop}

theorem run_item_of_close (single : Parser α) (items : List α) {cursor : Cursor}
    (closed : frontKind cursor.rest = .symbol close) :
    (item close single items).run cursor = .accepted items cursor := by
  unfold item
  simp [closed]

theorem run_item_of_accepted (items : List α) {value : α} {cursor after : Cursor}
    (further : frontKind cursor.rest ≠ .symbol close)
    (accepted : single.run cursor = .accepted value after) :
    (item close single items).run cursor = .accepted (items ++ [value]) after := by
  unfold item
  simp [further, run_bind_of_accepted accepted]

structure Takes (close : Symbol) (single : Parser α) (agrees : α → α → Prop)
    (entry : α × List Kind) : Prop where
  completes : Completes single (fun kind => kind = .symbol .comma ∨ kind = .symbol close) entry.2
    (agrees · entry.1)
  opens : ∃ first rest, entry.2 = first :: rest ∧ first ≠ .symbol close

theorem Takes.item {entry : α × List Kind} (takes : Takes close single agrees entry)
    (items : List α) {tokens rest : List Token} (nextId : Nat)
    (between : Between tokens entry.2 rest)
    (ends : frontKind rest = .symbol .comma ∨ frontKind rest = .symbol close) :
    ∃ value nextId', (Parser.item close single items).run ⟨tokens, nextId⟩ =
      .accepted (items ++ [value]) ⟨rest, nextId'⟩ ∧ agrees value entry.1 := by
  obtain ⟨value, nextId', accepted, same⟩ := takes.completes ⟨tokens, nextId⟩ rest between ends
  obtain ⟨first, further, run, notClose⟩ := takes.opens
  rw [run] at between
  refine ⟨value, nextId', run_item_of_accepted items ?_ accepted, same⟩
  exact (frontKind_of_between between).trans_ne notClose

theorem ends_of_further {trailing : List Kind} {runs : List (List Kind)}
    {tokens rest : List Token} (trailingComma : trailing = [] ∨ trailing = [.symbol .comma])
    (between : Between tokens
      (runs.flatMap (Kind.symbol .comma :: ·) ++ (trailing ++ [.symbol close])) rest) :
    frontKind tokens = .symbol .comma ∨ frontKind tokens = .symbol close := by
  cases runs with
  | nil =>
      rcases trailingComma with rfl | rfl
      · exact Or.inr (frontKind_of_between between)
      · exact Or.inl (frontKind_of_between between)
  | cons => exact Or.inl (frontKind_of_between between)

/-- What is behind the first item: the other items with a comma before each, perhaps a last comma,
and the closing symbol. -/
theorem listLoop_completes (noComma : close ≠ .comma) {trailing : List Kind}
    (trailingComma : trailing = [] ∨ trailing = [.symbol .comma])
    (entries : List (α × List Kind)) (takes : ∀ entry ∈ entries, Takes close single agrees entry)
    (items : List α) {tokens rest : List Token} (nextId : Nat)
    (between : Between tokens
      ((entries.map Prod.snd).flatMap (Kind.symbol .comma :: ·) ++ (trailing ++ [.symbol close]))
      rest) :
    ∃ values last nextId',
      extendRun (fun kind => if kind = .symbol .comma then some () else none)
        (fun items _ _ => item close single items) items tokens nextId =
          .accepted (items ++ values) ⟨last, nextId'⟩ ∧
        Between last [.symbol close] rest ∧ List.Forall₂ agrees values (entries.map Prod.fst) := by
  have stops : ∀ {last : List Token}, Between last [.symbol close] rest →
      (if frontKind last = .symbol .comma then some () else none) = none := by
    intro last ends
    simp [frontKind_of_between ends, noComma]
  induction entries generalizing items tokens nextId with
  | nil =>
      rcases trailingComma with rfl | rfl
      · refine ⟨[], tokens, nextId, ?_, between, .nil⟩
        rw [extendRun_of_none (stops between), List.append_nil]
      · obtain ⟨token, last, rfl, comma, ends⟩ := between.uncons
        refine ⟨[], last, nextId, ?_, ends, .nil⟩
        have goesOn : (if token.kind = .symbol .comma then some () else none) = some () := by
          rw [if_pos comma]
        have step : (item close single items).run ⟨last, nextId⟩ = .accepted items ⟨last, nextId⟩ :=
          run_item_of_close single items (frontKind_of_between ends)
        rw [extendRun_of_some goesOn step, extendRun_of_none (stops ends), List.append_nil]
  | cons entry entries ih =>
      rw [List.map_cons, List.flatMap_cons, List.append_assoc] at between
      obtain ⟨token, tail, rfl, comma, between⟩ := between.uncons
      obtain ⟨middle, one, others⟩ := between.split
      have ends := ends_of_further trailingComma others
      obtain ⟨value, nextId', taken, same⟩ :=
        (takes entry List.mem_cons_self).item items nextId one ends
      obtain ⟨values, last, nextId'', looped, closes, sames⟩ :=
        ih (fun entry member => takes entry (List.mem_cons_of_mem _ member)) (items ++ [value])
          nextId' others
      refine ⟨value :: values, last, nextId'', ?_, closes, .cons same sames⟩
      have goesOn : (if token.kind = .symbol .comma then some () else none) = some () := by
        rw [if_pos comma]
      rw [extendRun_of_some goesOn taken, looped, List.append_assoc, List.singleton_append]

theorem run_listUntil {items first : List α} {cursor middle : Cursor} {last rest : List Token}
    {nextId : Nat} (begun : (item close single []).run cursor = .accepted first middle)
    (looped : extendRun (fun kind => if kind = .symbol .comma then some () else none)
      (fun items _ _ => item close single items) first middle.rest middle.nextId =
        .accepted items ⟨last, nextId⟩)
    (closes : Between last [.symbol close] rest) :
    ∃ span nextId', (listUntil close single).run cursor =
      .accepted (items, span) ⟨rest, nextId'⟩ := by
  obtain ⟨span, nextId', closed, _⟩ := completes_expect close ⟨last, nextId⟩ rest closes trivial
  refine ⟨span, nextId', ?_⟩
  unfold listUntil
  rw [run_bind_of_accepted begun, run_bind_of_accepted looped, run_bind_of_accepted closed,
    run_pure]

theorem listUntil_completes (noComma : close ≠ .comma) {entries : List (α × List Kind)}
    (takes : ∀ entry ∈ entries, Takes close single agrees entry) {kinds : List Kind}
    (listing : Listing (entries.map Prod.snd) kinds) :
    Completes (listUntil close single) (fun _ => True) (kinds ++ [.symbol close]) fun result =>
      List.Forall₂ agrees result.1 (entries.map Prod.fst) := by
  intro cursor rest between _
  cases entries with
  | nil =>
      have empty : kinds = [] := by
        cases listing with
        | plain => rfl
        | trailing nonempty => exact absurd rfl nonempty
      rw [empty] at between
      have isClose : frontKind cursor.rest = .symbol close := frontKind_of_between between
      obtain ⟨span, nextId, accepted⟩ := run_listUntil (run_item_of_close single [] isClose)
        (extendRun_of_none (by simp [isClose, noComma])) between
      exact ⟨([], span), nextId, accepted, .nil⟩
  | cons entry entries =>
      obtain ⟨trailing, trailingComma, rfl⟩ : ∃ trailing : List Kind,
          (trailing = [] ∨ trailing = [.symbol .comma]) ∧
            kinds = entry.2 ++
              ((entries.map Prod.snd).flatMap (Kind.symbol .comma :: ·) ++ trailing) := by
        cases listing with
        | plain => exact ⟨[], Or.inl rfl, by simp [joined]⟩
        | trailing nonempty => exact ⟨_, Or.inr rfl, by simp [joined]⟩
      rw [List.append_assoc, List.append_assoc] at between
      obtain ⟨middle, one, others⟩ := between.split
      have ends := ends_of_further trailingComma others
      obtain ⟨value, nextId, taken, same⟩ :=
        (takes entry List.mem_cons_self).item [] cursor.nextId one ends
      obtain ⟨values, last, nextId', looped, closes, sames⟩ :=
        listLoop_completes noComma trailingComma entries
          (fun entry member => takes entry (List.mem_cons_of_mem _ member)) ([] ++ [value]) nextId
          others
      obtain ⟨span, nextId'', accepted⟩ := run_listUntil taken looped closes
      exact ⟨(_, span), nextId'', accepted, .cons same sames⟩

end List

end ContractExpr.Parser
