import ContractExpr.Proofs.Grammar.Building
import ContractExpr.Proofs.Parser.Steps

/-! # What the parser accepts is built

Whatever tokens a parser moves over when it accepts build what it gives, with the identities it
takes on the way and within the levels that were left to it. Each form of the grammar has its own
lemma, from the lemmas of the forms inside it, and the levels are tied together at the end.
-/

set_option autoImplicit false

namespace ContractExpr

open Token Grammar

theorem Cursor.rest_of_front {cursor : Cursor} {kind : Kind} (here : frontKind cursor.rest = kind)
    (more : kind.isEnd = false) :
    cursor.rest = cursor.current :: cursor.advance.rest ∧ cursor.current.kind = kind ∧
      cursor.advance.nextId = cursor.nextId := by
  obtain ⟨rest, nextId⟩ := cursor
  subst here
  cases rest with
  | nil => simp [frontKind, Kind.isEnd] at more
  | cons token rest =>
      have moved : (Cursor.mk (token :: rest) nextId).advance = ⟨rest, nextId⟩ := by
        rw [advance, current_kind, if_neg (by simpa using more)]
        rfl
      rw [moved]
      exact ⟨rfl, rfl, rfl⟩

namespace Parser

/-- When the parser accepts, what it gives has the given meaning for the tokens it moved over and
the identities it took. -/
def Building {α : Type} (parser : Parser α) (means : α → List Token → Nat → Nat → Prop) : Prop :=
  ∀ cursor value after, parser.run cursor = .accepted value after →
    ∃ tokens, cursor.rest = tokens ++ after.rest ∧
      means value tokens cursor.nextId after.nextId

theorem Building.imp {α : Type} {parser : Parser α}
    {means means' : α → List Token → Nat → Nat → Prop} (building : Building parser means)
    (weaker : ∀ value tokens first next,
      means value tokens first next → means' value tokens first next) :
    Building parser means' := by
  intro cursor value after accepted
  obtain ⟨tokens, whole, meant⟩ := building cursor value after accepted
  exact ⟨tokens, whole, weaker _ _ _ _ meant⟩

theorem refuse_building {α : Type} (cause : ParseError.Cause)
    (means : α → List Token → Nat → Nat → Prop) : Building (refuse cause) means := by
  intro cursor value after accepted
  rw [run_refuse] at accepted
  cases accepted

theorem name_building : Building name fun name tokens first next =>
    ∃ token, tokens = [token] ∧ Names name token first ∧ next = first + 1 := by
  intro cursor value after accepted
  unfold name at accepted
  rw [run_current_bind] at accepted
  split at accepted
  · rename_i text isName
    rw [Cursor.current_kind] at isName
    simp only [run_advance_bind, run_fresh_bind, run_pure] at accepted
    cases accepted
    obtain ⟨whole, kind, id⟩ := Cursor.rest_of_front isName rfl
    exact ⟨[cursor.current], whole, cursor.current, rfl, ⟨kind, by rw [id]⟩, by rw [id]⟩
  · simp [run_refuse] at accepted
  · exact absurd accepted not_accepted_unexpected

theorem expect_building (mark : Symbol) : Building (expect mark) fun span tokens first next =>
    ∃ token, tokens = [token] ∧ token.kind = .symbol mark ∧ span = token.span ∧ next = first := by
  intro cursor span after accepted
  by_cases here : frontKind cursor.rest = .symbol mark
  · rw [run_expect_of_eq here] at accepted
    cases accepted
    obtain ⟨whole, kind, id⟩ := Cursor.rest_of_front here rfl
    exact ⟨[cursor.current], whole, cursor.current, rfl, kind, rfl, id⟩
  · simp only [expect, run_current_bind, run_accept_bind_of_ne here] at accepted
    exact absurd accepted not_accepted_unexpected

/-- What every round of the loop keeps holds of its result. The invariant speaks of the value, the
tokens read for it, the tokens that follow and the next identity. -/
theorem building_extendRun {α γ : Type} {continues : Kind → Option γ}
    {extend : α → γ → Token → Parser α} (invariant : α → List Token → List Token → Nat → Prop)
    (step : ∀ {value tokens token rest found nextId extended after},
      invariant value tokens (token :: rest) nextId → continues token.kind = some found →
      (extend value found token).run ⟨rest, nextId⟩ = .accepted extended after →
      ∃ further, rest = further ++ after.rest ∧
        invariant extended (tokens ++ token :: further) after.rest after.nextId)
    {value result : α} {tokens rest : List Token} {nextId : Nat} {after : Cursor}
    (start : invariant value tokens rest nextId)
    (accepted : extendRun continues extend value rest nextId = .accepted result after) :
    ∃ further, rest = further ++ after.rest ∧
      invariant result (tokens ++ further) after.rest after.nextId := by
  fun_induction extendRun continues extend value rest nextId generalizing tokens with
  | case1 value nextId =>
      cases accepted
      exact ⟨[], rfl, by simpa using start⟩
  | case2 value token rest nextId stops =>
      cases accepted
      exact ⟨[], rfl, by simpa using start⟩
  | case3 value token rest nextId found goesOn extended middle reply ih =>
      obtain ⟨further, whole, kept⟩ := step start goesOn reply
      obtain ⟨last, whole', result⟩ := ih kept accepted
      refine ⟨token :: (further ++ last), by simp [whole, whole'], ?_⟩
      simpa using result
  | case4 value token rest nextId found goesOn error middle reply => cases accepted

/-! ## Lists -/

section List

variable {α : Type} {close : Symbol} {single : Parser α}
  {means : α → List Token → Nat → Nat → Prop}

/-- The items read so far, from the tokens read so far: a list that a comma may follow, or one
that the closing symbol has to follow. -/
def PartsSoFar (close : Symbol) (means : α → List Token → Nat → Nat → Prop) (first : Nat)
    (items : List α) (tokens rest : List Token) (next : Nat) : Prop :=
  ∃ parts : List (Grammar.Part α), items = parts.map Grammar.Part.value ∧
    (∀ part ∈ parts, means part.value part.tokens part.first part.next) ∧
      (Row parts tokens first next ∨
        (frontKind rest = .symbol close ∧ PartList parts tokens first next))

theorem accepted_item_part {items result : List α} {cursor after : Cursor}
    (building : Building single means)
    (accepted : (item close single items).run cursor = .accepted result after) :
    (frontKind cursor.rest = .symbol close ∧ result = items ∧ after = cursor) ∨
      ∃ part : Grammar.Part α, result = items ++ [part.value] ∧
        cursor.rest = part.tokens ++ after.rest ∧ part.first = cursor.nextId ∧
        part.next = after.nextId ∧ means part.value part.tokens part.first part.next := by
  unfold item at accepted
  rw [run_isAt_bind] at accepted
  by_cases closed : frontKind cursor.rest = .symbol close
  · simp only [closed, beq_self_eq_true, if_true, run_pure] at accepted
    cases accepted
    exact Or.inl ⟨closed, rfl, rfl⟩
  · simp only [beq_iff_eq, closed, if_false] at accepted
    obtain ⟨value, middle, first, accepted⟩ := accepted_bind accepted
    rw [run_pure] at accepted
    cases accepted
    obtain ⟨tokens, whole, meant⟩ := building _ _ _ first
    exact Or.inr ⟨⟨value, tokens, _, _⟩, rfl, whole, rfl, rfl, meant⟩

theorem partsSoFar_start {items : List α} {cursor after : Cursor}
    (building : Building single means)
    (accepted : (item close single []).run cursor = .accepted items after) :
    ∃ tokens, cursor.rest = tokens ++ after.rest ∧
      PartsSoFar close means cursor.nextId items tokens after.rest after.nextId := by
  rcases accepted_item_part building accepted with
    ⟨isClose, rfl, rfl⟩ | ⟨part, rfl, whole, first, next, meant⟩
  · exact ⟨[], rfl, [], rfl, by simp, Or.inr ⟨isClose, .nil _⟩⟩
  · refine ⟨part.tokens, whole, [part], rfl, by simpa using meant, Or.inl ?_⟩
    rw [← first, ← next]
    exact .single part

/-- One round of the loop keeps the items so far: behind the comma stands another item or the
closing symbol. -/
theorem partsSoFar_round (building : Building single means) (noComma : close ≠ .comma)
    {items extended : List α} {tokens rest : List Token} {token : Token} {found : Unit}
    {first nextId : Nat} {after : Cursor}
    (soFar : PartsSoFar close means first items tokens (token :: rest) nextId)
    (goesOn : (if token.kind = .symbol .comma then some () else none) = some found)
    (accepted : (item close single items).run ⟨rest, nextId⟩ = .accepted extended after) :
    ∃ further, rest = further ++ after.rest ∧
      PartsSoFar close means first extended (tokens ++ token :: further) after.rest
        after.nextId := by
  have comma : token.kind = .symbol .comma := by
    by_contra other
    simp [other] at goesOn
  obtain ⟨parts, rfl, each, state⟩ := soFar
  have row : Row parts tokens first nextId := by
    rcases state with row | ⟨isClose, _⟩
    · exact row
    · simp [comma, noComma.symm] at isClose
  rcases accepted_item_part building accepted with
    ⟨isClose, rfl, rfl⟩ | ⟨part, rfl, whole, begins, next, meant⟩
  · exact ⟨[], rfl, parts, rfl, each, Or.inr ⟨isClose, .trailing row comma⟩⟩
  · refine ⟨part.tokens, whole, parts ++ [part], by simp, ?_, Or.inl ?_⟩
    · exact List.forall_mem_append.mpr ⟨each, by simpa using meant⟩
    · rw [← next]
      exact .snoc part (begins ▸ row) comma

theorem listUntil_building (building : Building single means) (noComma : close ≠ .comma) :
    Building (listUntil close single) fun result tokens first next =>
      ∃ (parts : List (Grammar.Part α)) (inside : List Token) (last : Token),
        tokens = inside ++ [last] ∧ result = (parts.map Grammar.Part.value, last.span) ∧
          (∀ part ∈ parts, means part.value part.tokens part.first part.next) ∧
            PartList parts inside first next ∧ last.kind = .symbol close := by
  intro cursor result after accepted
  unfold listUntil at accepted
  obtain ⟨start, middle, begun, accepted⟩ := accepted_bind accepted
  obtain ⟨items, last, looped, accepted⟩ := accepted_bind accepted
  obtain ⟨span, final, closed, accepted⟩ := accepted_bind accepted
  rw [run_pure] at accepted
  cases accepted
  obtain ⟨tokens, begins, soFar⟩ := partsSoFar_start building begun
  obtain ⟨further, goesOn, parts, rfl, each, state⟩ :=
    building_extendRun _ (partsSoFar_round building noComma) soFar looped
  obtain ⟨_, ends, token, rfl, isClose, rfl, same⟩ := expect_building close _ _ _ closed
  refine ⟨tokens ++ further ++ [token], by simp [begins, goesOn, ends], parts, tokens ++ further,
    token, rfl, rfl, each, ?_, isClose⟩
  rw [same]
  rcases state with row | ⟨_, listed⟩
  · exact .plain row
  · exact listed

end List

/-! ## Forms of the grammar -/

section Forms

variable {left : Nat} {expression : Parser Expr}

abbrev Builder {α : Type} (left : Nat) (parser : Parser α) (form : α → Phrase) : Prop :=
  Building parser fun value => Builds left (form value)

abbrev ClosedBuilder {α : Type} (left : Nat) (parser : Parser (α × Span)) (form : α → Phrase) :
    Prop :=
  Building parser fun result tokens first next =>
    ∃ inside last, tokens = inside ++ [last] ∧ result.2 = last.span ∧
      Builds left (form result.1) (inside ++ [last]) first next

theorem arguments_building (inner : Builder left expression .expression) :
    ClosedBuilder left (arguments expression) .arguments := by
  intro cursor result after accepted
  unfold arguments at accepted
  obtain ⟨span, middle, opened, accepted⟩ := accepted_bind accepted
  obtain ⟨_, begins, opening, rfl, isOpening, rfl, same⟩ := expect_building _ _ _ _ opened
  obtain ⟨_, ends, parts, inside, close, rfl, rfl, each, listed, isClose⟩ :=
    listUntil_building inner (by decide) _ _ _ accepted
  rw [same] at listed
  exact ⟨opening :: (inside ++ [close]), by simp [begins, ends], opening :: inside, close, rfl, rfl,
    .arguments parts isOpening each listed isClose⟩

theorem initializer_building (inner : Builder left expression .expression) (given : Name) :
    Building (initializer expression given) fun value tokens first next =>
      (tokens = [] ∧ value = .identifier given.text ⟨first, given.info.span⟩ ∧ next = first + 1) ∨
        ∃ colon further, tokens = colon :: further ∧ colon.kind = .symbol .colon ∧
          Builds left (.expression value) further first next := by
  intro cursor value after accepted
  unfold initializer at accepted
  by_cases isColon : frontKind cursor.rest = .symbol .colon
  · rw [run_accept_bind_of_eq isColon] at accepted
    obtain ⟨tokens, whole, built⟩ := inner _ _ _ accepted
    obtain ⟨begins, kind, same⟩ := Cursor.rest_of_front isColon rfl
    rw [same] at built
    exact ⟨_ :: tokens, by rw [begins, whole]; rfl, Or.inr ⟨_, tokens, rfl, kind, built⟩⟩
  · rw [run_accept_bind_of_ne isColon] at accepted
    simp only [Bool.false_eq_true, if_false, run_fresh_bind, run_pure] at accepted
    cases accepted
    exact ⟨[], rfl, Or.inl ⟨rfl, rfl, rfl⟩⟩

theorem field_building (inner : Builder left expression .expression) :
    Builder left (field expression) .field := by
  intro cursor value after accepted
  unfold field at accepted
  obtain ⟨given, middle, named, accepted⟩ := accepted_bind accepted
  obtain ⟨tree, last, initialized, accepted⟩ := accepted_bind accepted
  simp only [run_fresh_bind, run_pure] at accepted
  cases accepted
  obtain ⟨_, begins, word, rfl, names, second⟩ := name_building _ _ _ named
  obtain ⟨further, goesOn, meant⟩ := initializer_building inner given _ _ _ initialized
  refine ⟨word :: further, by simp [begins, goesOn], ?_⟩
  rw [second] at meant
  rcases meant with ⟨rfl, rfl, third⟩ | ⟨colon, tokens, rfl, isColon, built⟩
  · rw [third, names.info]
    exact .briefField names
  · rw [names.info]
    exact .field names isColon built

theorem fields_building (inner : Builder left expression .expression) :
    ClosedBuilder left (fields expression) .fields := by
  intro cursor result after accepted
  unfold fields at accepted
  obtain ⟨span, middle, opened, accepted⟩ := accepted_bind accepted
  obtain ⟨_, begins, opening, rfl, isOpening, rfl, same⟩ := expect_building _ _ _ _ opened
  obtain ⟨_, ends, parts, inside, close, rfl, rfl, each, listed, isClose⟩ :=
    listUntil_building (field_building inner) (by decide) _ _ _ accepted
  rw [same] at listed
  exact ⟨opening :: (inside ++ [close]), by simp [begins, ends], opening :: inside, close, rfl, rfl,
    .fields parts isOpening each listed isClose⟩

theorem named_building (inner : Builder left expression .expression) :
    Builder left (named expression) .primary := by
  intro cursor value after accepted
  unfold named at accepted
  obtain ⟨given, middle, isName, accepted⟩ := accepted_bind accepted
  obtain ⟨_, begins, word, rfl, names, second⟩ := name_building _ _ _ isName
  have span : given.info.span = word.span := by rw [names.info]
  rw [run_isAt_bind] at accepted
  split at accepted
  · obtain ⟨⟨trees, closeSpan⟩, last, argued, accepted⟩ := accepted_bind accepted
    simp only [run_fresh_bind, run_pure] at accepted
    cases accepted
    obtain ⟨_, goesOn, inside, close, rfl, rfl, built⟩ := arguments_building inner _ _ _ argued
    rw [second] at built
    rw [span]
    exact ⟨word :: (inside ++ [close]), by simp [begins, goesOn], .call names built⟩
  · rw [run_isAt_bind] at accepted
    split at accepted
    · obtain ⟨⟨entries, closeSpan⟩, last, filled, accepted⟩ := accepted_bind accepted
      simp only [run_fresh_bind, run_pure] at accepted
      cases accepted
      obtain ⟨_, goesOn, inside, close, rfl, rfl, built⟩ := fields_building inner _ _ _ filled
      rw [second] at built
      rw [span]
      exact ⟨word :: (inside ++ [close]), by simp [begins, goesOn], .structInstance names built⟩
    · rw [run_pure] at accepted
      cases accepted
      rw [second]
      exact ⟨[word], begins, .identifier names⟩

theorem initial_building (inner : Builder left expression .expression) {start : Token}
    (isInitOf : start.kind = .initOf) :
    Building (initial start.span expression) fun value tokens =>
      Builds left (.primary value) (start :: tokens) := by
  intro cursor value after accepted
  unfold initial at accepted
  obtain ⟨contract, middle, isName, accepted⟩ := accepted_bind accepted
  obtain ⟨_, begins, word, rfl, names, second⟩ := name_building _ _ _ isName
  obtain ⟨⟨trees, closeSpan⟩, last, argued, accepted⟩ := accepted_bind accepted
  simp only [run_fresh_bind, run_pure] at accepted
  cases accepted
  obtain ⟨_, goesOn, inside, close, rfl, rfl, built⟩ := arguments_building inner _ _ _ argued
  rw [second] at built
  exact ⟨word :: (inside ++ [close]), by simp [begins, goesOn], .initOf isInitOf names built⟩

theorem leaf_building {cursor : Cursor} {kind : Kind} {tree : Info → Expr}
    (here : frontKind cursor.rest = kind) (more : kind.isEnd = false)
    (build : ∀ {token : Token} {first : Nat}, token.kind = kind →
      Builds left (.primary (tree ⟨first, token.span⟩)) [token] first (first + 1)) :
    ∃ tokens, cursor.rest = tokens ++ cursor.advance.rest ∧
      Builds left (.primary (tree ⟨cursor.advance.nextId, cursor.current.span⟩)) tokens
        cursor.nextId (cursor.advance.nextId + 1) := by
  obtain ⟨whole, kind, same⟩ := Cursor.rest_of_front here more
  rw [same]
  exact ⟨[cursor.current], whole, build kind⟩

theorem primary_building (inner : Builder left expression .expression) :
    Builder left (primary expression) .primary := by
  intro cursor value after accepted
  unfold primary at accepted
  rw [run_current_bind, Cursor.current_kind] at accepted
  split at accepted
  · rename_i value isBoolean
    simp only [run_advance_bind, run_fresh_bind, run_pure] at accepted
    cases accepted
    exact leaf_building isBoolean rfl .boolean
  · rename_i isNull
    simp only [run_advance_bind, run_fresh_bind, run_pure] at accepted
    cases accepted
    exact leaf_building isNull rfl .null
  · rename_i base digits isNumber
    rw [run_advance_bind] at accepted
    split at accepted
    · rename_i value read
      simp only [run_fresh_bind, run_pure] at accepted
      cases accepted
      exact leaf_building isNumber rfl fun isNumber => .number isNumber read
    · cases accepted
  · rename_i content isString
    simp only [run_advance_bind, run_fresh_bind, run_pure] at accepted
    cases accepted
    exact leaf_building isString rfl .string
  · rename_i isInitOf
    rw [run_advance_bind] at accepted
    obtain ⟨begins, kind, same⟩ := Cursor.rest_of_front isInitOf rfl
    obtain ⟨tokens, goesOn, built⟩ := initial_building inner kind _ _ _ accepted
    rw [same] at built
    exact ⟨_ :: tokens, by rw [begins, goesOn]; rfl, built⟩
  · exact named_building inner _ _ _ accepted
  · rename_i isOpening
    rw [run_advance_bind] at accepted
    obtain ⟨tree, middle, grouped, accepted⟩ := accepted_bind accepted
    obtain ⟨span, last, closed, accepted⟩ := accepted_bind accepted
    rw [run_pure] at accepted
    cases accepted
    obtain ⟨begins, kind, same⟩ := Cursor.rest_of_front isOpening rfl
    obtain ⟨tokens, goesOn, built⟩ := inner _ _ _ grouped
    obtain ⟨_, ends, close, rfl, isClose, rfl, same'⟩ := expect_building _ _ _ _ closed
    rw [same] at built
    rw [same']
    exact ⟨_ :: (tokens ++ [close]), by rw [begins, goesOn, ends]; simp,
      .group kind built isClose⟩
  · exact absurd accepted not_accepted_unexpected

/-! ### Behind and before an operand -/

theorem member_building (inner : Builder left expression .expression) {receiver : Expr}
    {tokens rest : List Token} {dot : Token} {first nextId : Nat} {value : Expr} {after : Cursor}
    (built : Builds left (.suffixed receiver) tokens first nextId)
    (isDot : dot.kind = .symbol .dot)
    (accepted : (member expression receiver).run ⟨rest, nextId⟩ = .accepted value after) :
    ∃ further, rest = further ++ after.rest ∧
      Builds left (.suffixed value) (tokens ++ dot :: further) first after.nextId := by
  unfold member at accepted
  obtain ⟨given, middle, isName, accepted⟩ := accepted_bind accepted
  obtain ⟨_, whole, word, rfl, names, second⟩ := name_building _ _ _ isName
  have begins : rest = word :: middle.rest := whole
  rw [run_isAt_bind] at accepted
  split at accepted
  · obtain ⟨⟨trees, closeSpan⟩, last, argued, accepted⟩ := accepted_bind accepted
    simp only [run_fresh_bind, run_pure] at accepted
    cases accepted
    obtain ⟨_, goesOn, inside, close, rfl, rfl, given⟩ := arguments_building inner _ _ _ argued
    rw [second] at given
    exact ⟨word :: (inside ++ [close]), by simp [begins, goesOn],
      .methodCall built isDot names given⟩
  · simp only [run_fresh_bind, run_pure] at accepted
    cases accepted
    have span : given.info.span = word.span := by rw [names.info]
    rw [second, span]
    exact ⟨[word], begins, .fieldAccess built isDot names⟩

theorem suffix_building (inner : Builder left expression .expression) {operand value : Expr}
    {tokens rest : List Token} {token : Token} {found : Suffix} {first nextId : Nat}
    {after : Cursor} (built : Builds left (.suffixed operand) tokens first nextId)
    (continued : suffix? token.kind = some found)
    (accepted : (suffix expression operand found token).run ⟨rest, nextId⟩ =
      .accepted value after) :
    ∃ further, rest = further ++ after.rest ∧
      Builds left (.suffixed value) (tokens ++ token :: further) first after.nextId := by
  unfold suffix? at continued
  split at continued
  · rename_i isBang
    cases continued
    simp only [suffix, run_fresh_bind, run_pure] at accepted
    cases accepted
    exact ⟨[], rfl, .notNull built isBang⟩
  · rename_i isDot
    cases continued
    exact member_building inner built isDot accepted
  · cases continued

theorem suffixed_building (inner : Builder left expression .expression) :
    Builder left (suffixed expression) .suffixed := by
  intro cursor value after accepted
  unfold suffixed at accepted
  obtain ⟨operand, middle, begun, accepted⟩ := accepted_bind accepted
  obtain ⟨tokens, begins, built⟩ := primary_building inner _ _ _ begun
  obtain ⟨further, goesOn, result⟩ :=
    building_extendRun
      (fun tree tokens _ next => Builds left (.suffixed tree) tokens cursor.nextId next)
      (fun built continued step => suffix_building inner built continued step)
      (.unsuffixed built) accepted
  exact ⟨_, by rw [begins, goesOn, List.append_assoc], result⟩

theorem signed_building {inner operand : Parser Expr}
    (within : Building inner fun value tokens first next =>
      ∃ below, left = below + 1 ∧ Builds below (.signed value) tokens first next)
    (without : Builder left operand .suffixed) : Builder left (signed inner operand) .signed := by
  intro cursor value after accepted
  unfold signed at accepted
  rw [run_current_bind, Cursor.current_kind] at accepted
  rcases signs_cases (frontKind cursor.rest) with
    unsigned | ⟨op, leads, isSign, signs⟩ | ⟨isSign, signs⟩
  · simp only [unsigned] at accepted
    obtain ⟨tokens, whole, built⟩ := without _ _ _ accepted
    exact ⟨tokens, whole, .unsigned built⟩
  all_goals
    simp only [signs, run_advance_bind] at accepted
    obtain ⟨tree, middle, inside, accepted⟩ := accepted_bind accepted
    obtain ⟨tokens, goesOn, below, rfl, built⟩ := within _ _ _ inside
    simp only [applySigns, run_fresh_bind, run_pure] at accepted
    cases accepted
    obtain ⟨begins, kind, same⟩ := Cursor.rest_of_front isSign rfl
    rw [same] at built
    refine ⟨_ :: tokens, by rw [begins, goesOn]; rfl, ?_⟩
  · exact .sign op leads kind built
  · exact .doubleNot kind built

/-! ### Between operands -/

theorem leftChain_building {strength : Nat} {operand : Parser Expr}
    (below : strength < Precedence.sign)
    (inner : Builder left operand (.chain (strength + 1))) :
    Builder left (leftChain strength operand) (.chain strength) := by
  intro cursor value after accepted
  rw [leftChain_eq] at accepted
  obtain ⟨start, middle, begun, accepted⟩ := accepted_bind accepted
  obtain ⟨tokens, begins, built⟩ := inner _ _ _ begun
  have round {former result : Expr} {tokens rest : List Token} {mark : Token} {op : BinaryOp}
      {nextId : Nat} {after : Cursor}
      (built : Builds left (.chain strength former) tokens cursor.nextId nextId)
      (isOperator : operatorOf? strength mark.kind = some op)
      (step : (chainStep operand former op mark).run ⟨rest, nextId⟩ = .accepted result after) :
      ∃ further, rest = further ++ after.rest ∧
        Builds left (.chain strength result) (tokens ++ mark :: further) cursor.nextId
          after.nextId := by
    obtain ⟨latter, last, read, step⟩ := accepted_bind step
    simp only [run_fresh_bind, run_pure] at step
    cases step
    obtain ⟨further, whole, inBack⟩ := inner _ _ _ read
    obtain ⟨isMark, rfl⟩ := operatorOf?_eq_some isOperator
    exact ⟨further, whole, .binary op built isMark inBack⟩
  obtain ⟨further, goesOn, result⟩ :=
    building_extendRun
      (fun tree tokens _ next => Builds left (.chain strength tree) tokens cursor.nextId next)
      round (.tighter below built) accepted
  exact ⟨_, by rw [begins, goesOn, List.append_assoc], result⟩

theorem binary_building {operand : Parser Expr} (inner : Builder left operand .signed) (least : Nat)
    (bounded : least ≤ Precedence.sign) : Builder left (binary operand least) (.chain least) := by
  -- by the number of strengths from the least one up to the signs
  induction gap : Precedence.sign - least generalizing least with
  | zero =>
      obtain rfl : least = Precedence.sign := by omega
      rw [binary_sign]
      exact inner.imp fun _ _ _ _ built => .operand built
  | succ gap ih =>
      have below : least < Precedence.sign := by omega
      rw [binary_of_lt below]
      exact leftChain_building below (ih (least + 1) below (by omega))

theorem conditional_building {operand expression : Parser Expr}
    (inner : Builder left operand .signed)
    (innerExpression : Builder left expression .expression) :
    Builder (left + 1) (conditional operand expression) .expression := by
  intro cursor value after accepted
  unfold conditional at accepted
  have chain := binary_building inner Precedence.loosestBinary (by decide)
  obtain ⟨condition, middle, first, accepted⟩ := accepted_bind accepted
  obtain ⟨before, begins, former⟩ := chain _ _ _ first
  by_cases isQuestion : frontKind middle.rest = .symbol .question
  · rw [run_accept_bind_of_eq isQuestion] at accepted
    obtain ⟨consequent, colonPlace, second, accepted⟩ := accepted_bind accepted
    obtain ⟨span, last, expected, accepted⟩ := accepted_bind accepted
    obtain ⟨alternative, final, third, accepted⟩ := accepted_bind accepted
    simp only [run_fresh_bind, run_pure] at accepted
    cases accepted
    obtain ⟨mark, kind, same⟩ := Cursor.rest_of_front isQuestion rfl
    obtain ⟨between, goesOn, inMiddle⟩ := chain _ _ _ second
    obtain ⟨_, further, colon, rfl, isColon, rfl, same'⟩ := expect_building _ _ _ _ expected
    obtain ⟨behind, ends, latter⟩ := innerExpression _ _ _ third
    rw [same] at inMiddle
    rw [same'] at latter
    refine ⟨before ++ _ :: (between ++ colon :: behind), ?_,
      .conditional former kind inMiddle isColon latter⟩
    rw [begins, mark, goesOn, further, ends]
    simp
  · rw [run_accept_bind_of_ne isQuestion] at accepted
    cases accepted
    exact ⟨before, begins, .unconditional former⟩

end Forms

/-! ## Levels -/

/-- The parsers of the level that can open the given number of further ones. -/
theorem withLeft_building (left : Nat) :
    Builder left (Level.withLeft left).expression .expression ∧
      Builder left (Level.withLeft left).operand .signed := by
  induction left with
  | zero =>
      have expression := refuse_building (α := Expr) .nestedTooDeeply fun value =>
        Builds 0 (.expression value)
      exact ⟨expression, signed_building (refuse_building _ _) (suffixed_building expression)⟩
  | succ left ih =>
      have expression := conditional_building ih.2 ih.1
      refine ⟨expression, signed_building ?_ (suffixed_building expression)⟩
      exact ih.2.imp fun _ _ _ _ built => ⟨left, rfl, built⟩

end Parser
end ContractExpr
