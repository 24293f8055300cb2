import ContractExpr.Proofs.Parser.Climbing
import ContractExpr.Proofs.Session.Loops

/-! # Recursive descent mirrors the parsers

Each function on sessions mirrors the parser of its form if the functions it calls mirror theirs.
-/

set_option autoImplicit false

namespace ContractExpr

open Token

/-! ## Trees with other identities -/

section Shift

variable (offset : Nat)

def Name.shift (name : Name) : Name := name.mapInfo (Info.shift offset)

def Expr.shift (tree : Expr) : Expr := tree.mapInfo (Info.shift offset)

def Field.shift (entry : Field Expr) : Field Expr :=
  ⟨entry.name.shift offset, entry.initializer.shift offset, entry.info.shift offset⟩

theorem Expr.span_shift (tree : Expr) : (tree.shift offset).span = tree.span := by
  cases tree <;> simp only [shift, mapInfo] <;> rfl

section Lists

variable (given : Name) (trees : List Expr) (info : Info)

theorem Expr.shift_call : (call given trees info).shift offset =
    call (given.shift offset) (trees.map (shift offset)) (info.shift offset) := by
  rw [shift, mapInfo, mapInfoOfList_eq]
  rfl

theorem Expr.shift_initOf : (initOf given trees info).shift offset =
    initOf (given.shift offset) (trees.map (shift offset)) (info.shift offset) := by
  rw [shift, mapInfo, mapInfoOfList_eq]
  rfl

theorem Expr.shift_methodCall (receiver : Expr) :
    (methodCall receiver given trees info).shift offset =
      methodCall (receiver.shift offset) (given.shift offset) (trees.map (shift offset))
        (info.shift offset) := by
  rw [shift, mapInfo, mapInfoOfList_eq]
  rfl

theorem Expr.shift_structInstance (entries : List (Field Expr)) :
    (structInstance given entries info).shift offset =
      structInstance (given.shift offset) (entries.map (Field.shift offset))
        (info.shift offset) := by
  rw [shift, mapInfo, mapInfoOfFields_eq]
  rfl

end Lists

end Shift

namespace Expr

mutual

theorem mapInfo_id (tree : Expr) : tree.mapInfo id = tree := by
  cases tree with
  | number | boolean | null | string | identifier => rfl
  | unary op operand info => rw [mapInfo, mapInfo_id operand, id]
  | binary op left right info => rw [mapInfo, mapInfo_id left, mapInfo_id right, id]
  | conditional condition consequent alternative info =>
      rw [mapInfo, mapInfo_id condition, mapInfo_id consequent, mapInfo_id alternative, id]
  | initOf contract arguments info => rw [mapInfo, mapInfoOfList_id arguments, Name.mapInfo, id, id]
  | methodCall receiver method arguments info =>
      rw [mapInfo, mapInfo_id receiver, mapInfoOfList_id arguments, Name.mapInfo, id, id]
  | fieldAccess aggregate field info => rw [mapInfo, mapInfo_id aggregate, Name.mapInfo, id, id]
  | call function arguments info => rw [mapInfo, mapInfoOfList_id arguments, Name.mapInfo, id, id]
  | structInstance type fields info => rw [mapInfo, mapInfoOfFields_id fields, Name.mapInfo, id, id]

theorem mapInfoOfList_id (trees : List Expr) : mapInfoOfList id trees = trees := by
  cases trees with
  | nil => rfl
  | cons first rest => rw [mapInfoOfList, mapInfo_id first, mapInfoOfList_id rest]

theorem mapInfoOfFields_id (entries : List (Field Expr)) : mapInfoOfFields id entries = entries := by
  cases entries with
  | nil => rfl
  | cons first rest =>
      obtain ⟨name, initializer, info⟩ := first
      rw [mapInfoOfFields, mapInfo_id initializer, mapInfoOfFields_id rest, Name.mapInfo, id, id]

end

theorem shift_zero : shift 0 = id := funext mapInfo_id

end Expr

/-! ## Names and lists -/

variable {α β γ : Type}

/-- The items are made from those of the list, and the session stands behind the closing symbol. -/
def Listed (f : α → β) : List α × Span → List β → Session → Prop :=
  fun value given after => given = value.1.map f ∧ after.previousSpan = value.2

namespace Mirrors

variable {offset left : Nat} {f : α → β}

theorem name : Mirrors offset left (Made (Name.shift offset)) Parser.name Descent.name := by
  apply peek
  intro token
  cases token.kind with
  | name text => exact advance.bind fun _ => (fresh _).bind fun info => pure (Name.mk text info)
  | reserved word => exact refuse _
  | _ => exact unexpected _

theorem run_listUntil (close : Symbol) (single : Parser α) (cursor : Cursor) :
    (Parser.listUntil close single).run cursor =
      (do
        let items ← listTail close single []
        return (items, ← Parser.expect close)).run cursor := by
  rw [Parser.listUntil, listTail, Parser.run_bind, Parser.run_bind, Parser.run_bind]
  cases (Parser.item close single []).run cursor <;> rfl

theorem listUntil {close : Symbol} (noComma : close ≠ .comma) {single : Parser α}
    {item : Descent β} (inner : Mirrors offset left (Made f) single item) :
    Mirrors offset left (Listed f) (Parser.listUntil close single)
      (do
        let items ← Descent.loop (Descent.listRound close item) []
        Descent.expect close
        return items) := by
  intro session nextId stands
  rw [run_listUntil]
  refine Agrees.bind stands
    (agrees_listRounds noComma inner session.tokens.length [] stands session.length_rest_le) ?_
  rintro items _ after nextId rfl standsAfter
  refine Agrees.bind standsAfter (expect close after nextId standsAfter) ?_
  rintro span _ last nextId behind standsLast
  exact .accepted ⟨rfl, behind⟩ standsLast.leads

theorem past (mark : Symbol) {relate : α → β → Session → Prop} {next : Parser α}
    {continuation : Descent β} (behind : Mirrors offset left relate next continuation) :
    Mirrors offset left relate
      (do
        let _ ← Parser.expect mark
        next)
      (do
        Descent.expect mark
        continuation) := by
  intro session nextId stands
  refine Agrees.bind stands (expect mark session nextId stands) ?_
  intro _ _ after nextId _ standsAfter
  exact behind after nextId standsAfter

theorem list {opening close : Symbol} (noComma : close ≠ .comma) {single : Parser α}
    {item : Descent β} (inner : Mirrors offset left (Made f) single item) :
    Mirrors offset left (Listed f)
      (do
        let _ ← Parser.expect opening
        Parser.listUntil close single)
      (Descent.list opening close item) :=
  past opening (listUntil noComma inner)

/-! ## Operands -/

section Functions

variable {expression operandParser : Parser Expr} {calls : Descent.Calls}

abbrev Tree (offset : Nat) : Expr → Expr → Session → Prop := Made (Expr.shift offset)

section Unmoved

variable {parser : Parser Expr} {function : Descent Expr} {session : Session} {tree : Expr}

theorem eq_of_tree_zero {after : Session} {value : Expr} (related : Tree 0 value tree after) :
    tree = value := by
  rw [show tree = value.shift 0 from related, Expr.shift_zero]
  rfl

/-- With the identities of the session itself, what the function gives the parser accepts. -/
theorem accepted_of_ok {after : Session} (mirrors : Mirrors 0 left (Tree 0) parser function)
    (level : session.nesting + left = Parser.nestingLimit)
    (ok : function session = .ok tree after) :
    ∃ cursor, parser.run (session.cursor session.nextId) = .accepted tree cursor ∧
      session.Leads 0 cursor after := by
  have agrees := mirrors session session.nextId ⟨rfl, level⟩
  rw [ok] at agrees
  generalize parser.run (session.cursor session.nextId) = reply at agrees
  cases agrees with
  | accepted related leads => exact ⟨_, by rw [eq_of_tree_zero related], leads⟩

theorem ok_of_accepted {cursor : Cursor} (mirrors : Mirrors 0 left (Tree 0) parser function)
    (level : session.nesting + left = Parser.nestingLimit)
    (accepted : parser.run (session.cursor session.nextId) = .accepted tree cursor) :
    ∃ after, function session = .ok tree after ∧ session.Leads 0 cursor after := by
  have agrees := mirrors session session.nextId ⟨rfl, level⟩
  rw [accepted] at agrees
  generalize function session = outcome at agrees
  cases agrees with
  | accepted related leads => exact ⟨_, by rw [eq_of_tree_zero related], leads⟩

end Unmoved

theorem give {value : α} {given : β} (same : given = f value) :
    Mirrors offset left (Made f) (Pure.pure value) (Pure.pure given) := by
  subst same
  exact pure value

theorem node {δ : Type} {span : Span} {f : γ → δ} {made : Info → γ} {given : Info → δ}
    (same : ∀ info, given (info.shift offset) = f (made info)) :
    Mirrors offset left (Made f) (do return made (← Parser.fresh span))
      (do return given (← Descent.fresh span)) :=
  (fresh _).bind fun info => give (same info)

theorem arguments (inner : Mirrors offset left (Tree offset) expression calls.expression) :
    Mirrors offset left (Listed (Expr.shift offset)) (Parser.arguments expression)
      (Descent.arguments calls) :=
  list (by decide) inner

theorem initializer (inner : Mirrors offset left (Tree offset) expression calls.expression)
    (name : Name) :
    Mirrors offset left (Tree offset) (Parser.initializer expression name)
      (Descent.initializer calls (name.shift offset)) := by
  apply accept.bind
  rintro (_ | _)
  · exact node fun _ => rfl
  · exact inner

theorem field (inner : Mirrors offset left (Tree offset) expression calls.expression) :
    Mirrors offset left (Made (Field.shift offset)) (Parser.field expression)
      (Descent.field calls) := by
  apply name.bind
  intro name
  apply (initializer inner name).bind
  intro initializer
  rw [Expr.span_shift]
  exact node fun _ => rfl

theorem fields (inner : Mirrors offset left (Tree offset) expression calls.expression) :
    Mirrors offset left (Listed (Field.shift offset)) (Parser.fields expression)
      (Descent.fields calls) :=
  list (by decide) (field inner)

theorem close {δ : Type} {items : Parser (List α × Span)} {function : Descent (List β)}
    {made : γ → δ} (listed : Mirrors offset left (Listed f) items function) (start : Span)
    {node : List α → Info → γ} {given : List β → Info → δ}
    (same : ∀ items info, given (items.map f) (info.shift offset) = made (node items info)) :
    Mirrors offset left (Made made)
      (do
        let (items, close) ← items
        return node items (← Parser.fresh (start.merge close)))
      (do
        let items ← function
        return given items (← Descent.fresh (start.merge (← Descent.previousSpan)))) := by
  intro session nextId stands
  refine Agrees.bind stands (listed session nextId stands) ?_
  rintro ⟨items, close⟩ _ after nextId ⟨rfl, behind⟩ standsAfter
  have node : Mirrors offset left (Made made)
      (do return node items (← Parser.fresh (start.merge close)))
      (do return given (items.map f) (← Descent.fresh (start.merge after.previousSpan))) := by
    rw [behind]
    exact Mirrors.node (same items)
  exact node after nextId standsAfter

theorem run_name {session : Session} {nextId : Nat} {text : String}
    (here : session.current.kind = .name text) :
    Parser.name.run (session.cursor nextId) =
      .accepted ⟨text, nextId, session.current.span⟩ ⟨session.advance.rest, nextId + 1⟩ := by
  rw [Parser.name, Parser.run_current_bind, Session.current_cursor, here]
  simp only
  rw [Parser.run_advance_bind, Session.cursor_advance]
  rfl

theorem named (inner : Mirrors offset left (Listed (Expr.shift offset))
      (Parser.arguments expression) calls.arguments)
    (innerFields : Mirrors offset left (Listed (Field.shift offset))
      (Parser.fields expression) calls.fields)
    {session : Session} {nextId : Nat} {text : String} (stands : session.At offset left nextId)
    (here : session.current.kind = .name text) :
    Agrees offset (Tree offset) session ((Parser.named expression).run (session.cursor nextId))
      (Descent.named calls session.current.span session) := by
  have begun := name session nextId stands
  rw [run_name here] at begun
  refine Agrees.bind stands (run_name here ▸ begun.exact) ?_
  rintro _ _ after nextId ⟨rfl, rfl⟩ standsAfter
  refine (isAt.bind fun isCall => ?_) after nextId standsAfter
  cases isCall with
  | true => exact close inner _ fun trees info => (Expr.shift_call offset _ trees info).symm
  | false =>
      refine isAt.bind fun isStruct => ?_
      cases isStruct with
      | true =>
          exact close innerFields _ fun entries info =>
            (Expr.shift_structInstance offset _ info entries).symm
      | false => exact give rfl

theorem primary (whole : Mirrors offset left (Tree offset) expression calls.expression)
    (inner : Mirrors offset left (Listed (Expr.shift offset))
      (Parser.arguments expression) calls.arguments)
    (innerFields : Mirrors offset left (Listed (Field.shift offset))
      (Parser.fields expression) calls.fields) :
    Mirrors offset left (Tree offset) (Parser.primary expression) (Descent.primary calls) := by
  intro session nextId stands
  rw [Parser.primary, Parser.run_current_bind, Session.current_cursor, Descent.primary,
    Descent.bind_eq, Descent.peek_eq]
  simp only
  cases here : session.current.kind with
  | boolean | null | string =>
      refine (advance.bind fun _ => node fun _ => ?_) session nextId stands
      rfl
  | number base digits =>
      refine (advance.bind fun _ => ?_) session nextId stands
      cases Number.ofDigits? base digits.toList with
      | some value => exact node fun _ => rfl
      | none => exact fail _
  | initOf =>
      refine (advance.bind fun _ => name.bind fun contract => close inner _ ?_) session nextId stands
      exact fun trees info => (Expr.shift_initOf offset contract trees info).symm
  | name text => exact named inner innerFields stands here
  | symbol mark =>
      cases mark with
      | leftParen =>
          refine (advance.bind fun _ => whole.bind fun tree => ?_) session nextId stands
          exact past .rightParen (pure tree)
      | _ => exact unexpected _ session nextId stands
  | _ => exact unexpected _ session nextId stands

/-! ## Suffixes and signs -/

theorem member (inner : Mirrors offset left (Listed (Expr.shift offset))
      (Parser.arguments expression) calls.arguments) (operand : Expr) :
    Mirrors offset left (Tree offset) (Parser.member expression operand)
      (Descent.member calls (operand.shift offset)) := by
  rw [Parser.member, Descent.member, Expr.span_shift]
  refine name.bind fun name => isAt.bind fun isCall => ?_
  cases isCall with
  | true =>
      exact close inner _ fun trees info =>
        (Expr.shift_methodCall offset name trees info operand).symm
  | false => exact node fun _ => rfl

theorem suffixRound_eq (operand : Expr) (session : Session) :
    Descent.suffixRound calls operand session =
      match Parser.suffix? session.current.kind with
      | some .notNull =>
        (ForInStep.yield <$> do
          let span ← Descent.previousSpan
          return Expr.unary .notNull operand (← Descent.fresh (operand.span.merge span)))
            session.advance
      | some .member => (ForInStep.yield <$> Descent.member calls operand) session.advance
      | none => .ok (.done operand) session := by
  rw [Descent.suffixRound, Descent.bind_eq, Descent.accept_eq]
  by_cases doubleBang : session.current.kind = .symbol .doubleBang
  · simp only [doubleBang, if_true]
    rfl
  · rw [if_neg doubleBang]
    simp only [Bool.false_eq_true, if_false]
    rw [Descent.bind_eq, Descent.accept_eq]
    by_cases dot : session.current.kind = .symbol .dot
    · simp only [dot, if_true]
      rfl
    · rw [if_neg dot]
      have stops : Parser.suffix? session.current.kind = none := by
        unfold Parser.suffix?
        split <;> simp_all
      simp only [stops]
      rfl

theorem goesOn {parser : Parser α} {function : Descent β}
    (inner : Mirrors offset left (Made f) parser function) :
    Mirrors offset left (Made (ForInStep.yield ∘ f)) parser (ForInStep.yield <$> function) := by
  intro session nextId stands
  have agrees := inner session nextId stands
  rw [← bind_pure_comp, Descent.bind_eq]
  generalize parser.run (session.cursor nextId) = reply at agrees ⊢
  generalize function session = outcome at agrees ⊢
  cases agrees with
  | accepted related leads => exact .accepted (congrArg _ related) leads
  | refused leads => exact .refused leads

theorem suffixed (operand : Mirrors offset left (Tree offset) (Parser.primary expression)
      calls.primary)
    (inner : Mirrors offset left (Listed (Expr.shift offset))
      (Parser.arguments expression) calls.arguments) :
    Mirrors offset left (Tree offset) (Parser.suffixed expression) (Descent.suffixed calls) := by
  refine operand.bind fun operand session nextId stands => ?_
  refine agrees_rounds rfl ?_ ?_ session.tokens.length operand stands session.length_rest_le
  · intro value session stops
    rw [suffixRound_eq, stops]
  · intro value found session nextId stands continues
    have moved := stands.leads_advance
    rw [suffixRound_eq, continues]
    cases found with
    | notNull =>
        have more : session.current.kind.isEnd = false := by
          cases here : session.current.kind <;> simp_all [Parser.suffix?, Kind.isEnd]
        have node : Mirrors offset left (Tree offset)
            (do
              let info ← Parser.fresh (value.span.merge session.current.span)
              return .unary .notNull value info)
            (do
              let span := (value.shift offset).span.merge session.advance.previousSpan
              return .unary .notNull (value.shift offset) (← Descent.fresh span)) := by
          rw [Session.previousSpan_advance more, Expr.span_shift]
          exact node fun _ => rfl
        exact (goesOn node _ _ (moved.stands stands)).from_leads moved
    | member =>
        exact (goesOn (member inner value) _ _ (moved.stands stands)).from_leads moved

theorem applySigns (start : Span) (signs : List UnaryOp) (operand : Expr) :
    Mirrors offset left (Tree offset) (Parser.applySigns start signs operand)
      (Descent.applySigns start signs (operand.shift offset)) := by
  induction signs generalizing operand with
  | nil => exact pure operand
  | cons op outer ih =>
      rw [Parser.applySigns, Descent.applySigns, Expr.span_shift]
      exact (fresh _).bind fun info => ih (.unary op operand info)

theorem signed {innerParser operand : Parser Expr}
    (deeper : Mirrors offset left (Tree offset) innerParser (Descent.nested calls.signed))
    (plain : Mirrors offset left (Tree offset) operand calls.suffixed) :
    Mirrors offset left (Tree offset) (Parser.signed innerParser operand)
      (Descent.signed calls) := by
  apply peek
  intro token
  cases token.kind.signs with
  | nil => exact plain
  | cons op outer =>
      exact advance.bind fun _ => deeper.bind fun operand => applySigns _ (op :: outer) operand

/-! ## Operators between operands -/

theorem binaryRound_eq (least : Nat) (value : Expr) (session : Session) :
    Descent.binaryRound calls least value session =
      match Parser.operatorFrom? least session.current.kind with
      | some op =>
        (ForInStep.yield <$> do
          let right ← calls.binary (op.precedence + 1)
          return Expr.binary op value right (← Descent.fresh (value.span.merge right.span)))
            session.advance
      | none => .ok (.done value) session := by
  rw [Descent.binaryRound, Descent.bind_eq, Descent.peek_eq]
  simp only
  cases writes : session.current.kind.binaryOp? with
  | none =>
      rw [Parser.operatorFrom?, writes]
      rfl
  | some op =>
      by_cases weak : op.precedence < least
      · have none : Parser.operatorFrom? least session.current.kind = none :=
          Parser.operatorFrom?_eq_none.mpr fun other same => by
            rw [writes] at same
            cases same
            exact weak
        simp only [none, if_pos weak]
        rfl
      · have some : Parser.operatorFrom? least session.current.kind = some op :=
          Parser.operatorFrom?_eq_some.mpr ⟨writes, Nat.le_of_not_lt weak⟩
        have moved : Descent.advance session = .ok () session.advance := rfl
        simp only [some, if_neg weak, ← bind_pure_comp, bind_assoc, pure_bind]
        rw [Descent.bind_eq, moved]

theorem binary (operand : Mirrors offset left (Tree offset) operandParser calls.signed)
    {least : Nat} (bound : least ≤ Precedence.sign)
    (tighter : ∀ op : BinaryOp, least ≤ op.precedence → Mirrors offset left (Tree offset)
      (Parser.binary operandParser (op.precedence + 1)) (calls.binary (op.precedence + 1))) :
    Mirrors offset left (Tree offset) (Parser.binary operandParser least)
      (Descent.binary calls least) := by
  intro session nextId stands
  rw [Parser.binary_run_eq_climb operandParser bound]
  refine (operand.bind fun first session nextId stands => ?_) session nextId stands
  refine agrees_rounds rfl ?_ ?_ session.tokens.length first stands session.length_rest_le
  · intro value session stops
    rw [binaryRound_eq, stops]
  · intro value op session nextId stands continues
    have moved := stands.leads_advance
    have strong := (Parser.operatorFrom?_eq_some.mp continues).2
    have node : Mirrors offset left (Tree offset)
        (Parser.climbStep operandParser value op session.current)
        (do
          let right ← calls.binary (op.precedence + 1)
          return .binary op (value.shift offset) right
            (← Descent.fresh ((value.shift offset).span.merge right.span))) := by
      refine (tighter op strong).bind fun right => ?_
      rw [Expr.span_shift, Expr.span_shift]
      exact node fun _ => rfl
    rw [binaryRound_eq, continues]
    exact (goesOn node _ _ (moved.stands stands)).from_leads moved

theorem conditional (chain : Mirrors offset left (Tree offset)
      (Parser.binary operandParser Precedence.loosestBinary)
      (calls.binary Precedence.loosestBinary))
    (whole : Mirrors offset left (Tree offset) expression calls.expression) :
    Mirrors offset left (Tree offset) (Parser.conditional operandParser expression)
      (Descent.conditional calls) := by
  refine chain.bind fun condition => accept.bind fun asks => ?_
  cases asks with
  | false => exact pure condition
  | true =>
      refine chain.bind fun consequent => past .colon (whole.bind fun alternative => ?_)
      rw [Expr.span_shift, Expr.span_shift]
      exact node fun _ => rfl

end Functions

end Mirrors
end ContractExpr
