import ContractExpr.Proofs.Expr.Alike
import ContractExpr.Proofs.Parser.Steps

/-! # What a parser looks at

Where a parser stops and what it gives depends on the kinds of the tokens it moves over and on the
kind of the one it stops before. Their places only enter the places of nodes and errors, and what
stands further behind is not looked at. Each way of building parsers keeps this.
-/

set_option autoImplicit false

namespace ContractExpr

open Token

/-! ## Trees without places -/

def Info.unplaced (info : Info) : Info := ⟨info.id, Span.placeholder⟩

def Name.unplaced (name : Name) : Name := name.mapInfo Info.unplaced

def Expr.unplaced (tree : Expr) : Expr := tree.mapInfo Info.unplaced

def Field.unplaced (entry : Field Expr) : Field Expr :=
  ⟨entry.name.unplaced, entry.initializer.unplaced, entry.info.unplaced⟩

theorem Info.unplaced_congr {info info' : Info} (same : info'.id = info.id) :
    info'.unplaced = info.unplaced := by
  rw [unplaced, unplaced, same]

theorem Name.text_congr {name name' : Name} (same : name'.unplaced = name.unplaced) :
    name'.text = name.text := by
  obtain ⟨text, info⟩ := name
  obtain ⟨text', info'⟩ := name'
  exact (Name.mk.injEq .. ▸ same).1

namespace Expr

variable (info : Info) (tree left right : Expr) (trees : List Expr) (name : Name)

@[simp]
theorem unplaced_identifier (text : String) :
    (identifier text info).unplaced = identifier text info.unplaced := rfl

@[simp]
theorem unplaced_unary (op : UnaryOp) :
    (unary op tree info).unplaced = unary op tree.unplaced info.unplaced := rfl

@[simp]
theorem unplaced_binary (op : BinaryOp) :
    (binary op left right info).unplaced =
      binary op left.unplaced right.unplaced info.unplaced := rfl

@[simp]
theorem unplaced_conditional :
    (conditional tree left right info).unplaced =
      conditional tree.unplaced left.unplaced right.unplaced info.unplaced := rfl

@[simp]
theorem unplaced_fieldAccess :
    (fieldAccess tree name info).unplaced =
      fieldAccess tree.unplaced name.unplaced info.unplaced := rfl

@[simp]
theorem unplaced_initOf :
    (initOf name trees info).unplaced =
      initOf name.unplaced (trees.map unplaced) info.unplaced := by
  rw [unplaced, mapInfo, mapInfoOfList_eq]
  rfl

@[simp]
theorem unplaced_methodCall :
    (methodCall tree name trees info).unplaced =
      methodCall tree.unplaced name.unplaced (trees.map unplaced) info.unplaced := by
  rw [unplaced, mapInfo, mapInfoOfList_eq]
  rfl

@[simp]
theorem unplaced_call :
    (call name trees info).unplaced =
      call name.unplaced (trees.map unplaced) info.unplaced := by
  rw [unplaced, mapInfo, mapInfoOfList_eq]
  rfl

@[simp]
theorem unplaced_structInstance (entries : List (Field Expr)) :
    (structInstance name entries info).unplaced =
      structInstance name.unplaced (entries.map Field.unplaced) info.unplaced := by
  rw [unplaced, mapInfo, mapInfoOfFields_eq]
  rfl

end Expr

/-! ## Runs of tokens of the same kinds -/

namespace Between

variable {earlier later : List Token} {kinds kinds' : List Kind}

theorem of_suffix (suffix : later <:+ earlier) : ∃ kinds, Between earlier kinds later := by
  obtain ⟨taken, rfl⟩ := suffix
  exact ⟨_, taken, rfl, rfl⟩

theorem unique (one : Between earlier kinds later) (other : Between earlier kinds' later) :
    kinds = kinds' := by
  obtain ⟨taken, rfl, rfl⟩ := one
  obtain ⟨taken', same, rfl⟩ := other
  rw [List.append_cancel_right same]

end Between

theorem frontKind_congr {earlier later earlier' later' : List Token} {kinds : List Kind}
    (one : Between earlier kinds later) (other : Between earlier' kinds later')
    (same : frontKind later' = frontKind later) : frontKind earlier' = frontKind earlier := by
  cases kinds with
  | nil => rw [other.eq_of_nil, one.eq_of_nil, same]
  | cons kind kinds => rw [frontKind_of_between one, frontKind_of_between other]

/-! ## The same reply elsewhere -/

variable {α β γ σ τ : Type}

/-- A reply like another one before the given tokens: the value looks the same, or the cause of the
error is the same. -/
inductive Reply.Echo (seen : α → σ) (rest : List Token) : Reply α → Reply α → Prop where
  | accepted {value value' : α} (after : Cursor) (same : seen value' = seen value) :
      Echo seen rest (.accepted value after) (.accepted value' ⟨rest, after.nextId⟩)
  | refused {error error' : ParseError} (after : Cursor) (same : error'.cause = error.cause) :
      Echo seen rest (.refused error after) (.refused error' ⟨rest, after.nextId⟩)

namespace Reply.Echo

variable {seen : α → σ} {rest : List Token} {reply : Reply α} {after : Cursor}

theorem of_accepted {value : α} (echo : Echo seen rest (.accepted value after) reply) :
    ∃ value', reply = .accepted value' ⟨rest, after.nextId⟩ ∧ seen value' = seen value := by
  cases echo with
  | accepted _ same => exact ⟨_, rfl, same⟩

theorem of_refused {error : ParseError} (echo : Echo seen rest (.refused error after) reply) :
    ∃ error', reply = .refused error' ⟨rest, after.nextId⟩ ∧ error'.cause = error.cause := by
  cases echo with
  | refused _ same => exact ⟨_, rfl, same⟩

end Reply.Echo

namespace Parser

/-- Before tokens of the kinds that the first parser moves over, with one behind them of the kind
that it stops before, the second parser replies like the first. -/
def Echoes (seen : α → σ) (first second : Parser α) : Prop :=
  ∀ cursor kinds, Between cursor.rest kinds (first.run cursor).after.rest →
    ∀ tokens rest, Between tokens kinds rest →
      frontKind rest = frontKind (first.run cursor).after.rest →
        Reply.Echo seen rest (first.run cursor) (second.run ⟨tokens, cursor.nextId⟩)

namespace Echoes

variable {seen : α → σ} {seen' : β → τ} {first second : Parser α}

theorem still (stays : ∀ cursor, (first.run cursor).after.rest = cursor.rest)
    (echo : ∀ cursor rest, frontKind rest = frontKind cursor.rest →
      Reply.Echo seen rest (first.run cursor) (second.run ⟨rest, cursor.nextId⟩)) :
    Echoes seen first second := by
  intro cursor kinds between tokens rest between' same
  rw [stays] at between same
  obtain rfl := between.unique (Between.refl _)
  obtain rfl := between'.eq_of_nil
  exact echo cursor tokens same

theorem pure {value value' : α} (same : seen value' = seen value) :
    Echoes seen (Pure.pure value) (Pure.pure value') :=
  still (fun _ => rfl) fun _ _ _ => .accepted _ same

theorem current : Echoes Token.kind current Parser.current :=
  still (fun _ => rfl) fun _ _ same => .accepted _ same

theorem fresh (span span' : Span) : Echoes Info.id (fresh span) (Parser.fresh span') :=
  still (fun _ => rfl) fun cursor _ _ => .accepted ⟨cursor.rest, cursor.nextId + 1⟩ rfl

theorem fail {error error' : ParseError} (same : error'.cause = error.cause) :
    Echoes seen (fail error) (Parser.fail error') :=
  still (fun _ => rfl) fun _ _ _ => .refused _ same

theorem advance : Echoes id advance Parser.advance := by
  intro cursor kinds between tokens rest between' same
  change Between cursor.rest kinds cursor.advance.rest at between
  change frontKind rest = frontKind cursor.advance.rest at same
  have front := frontKind_congr between between' same
  have ids (cursor : Cursor) : cursor.advance.nextId = cursor.nextId := by
    unfold Cursor.advance
    split <;> rfl
  have reached : Cursor.advance ⟨tokens, cursor.nextId⟩ = ⟨rest, cursor.advance.nextId⟩ := by
    cases isEnd : (frontKind cursor.rest).isEnd with
    | true =>
        have stays : cursor.advance = cursor := if_pos isEnd
        have stays' : Cursor.advance ⟨tokens, cursor.nextId⟩ = ⟨tokens, cursor.nextId⟩ :=
          if_pos (by rw [Cursor.current_kind, front, isEnd])
        rw [stays] at between
        obtain rfl := between.unique (Between.refl _)
        rw [stays', stays, between'.eq_of_nil]
    | false =>
        obtain rfl := between.unique (Cursor.between_advance rfl isEnd)
        have moved : (Cursor.advance ⟨tokens, cursor.nextId⟩).rest = rest :=
          (Cursor.advance_between between' isEnd).eq_of_nil
        rw [Cursor.mk.injEq, ids, ids]
        exact ⟨moved, rfl⟩
  change Reply.Echo id rest (.accepted () cursor.advance)
    (.accepted () (Cursor.advance ⟨tokens, cursor.nextId⟩))
  rw [reached]
  exact .accepted _ rfl

theorem bind {next next' : α → Parser β} (former : Echoes seen first second)
    (latter : ∀ value value', seen value' = seen value → Echoes seen' (next value) (next' value')) :
    Echoes seen' (first >>= next) (second >>= next') := by
  intro cursor kinds between tokens rest between' same
  rw [run_bind] at between same ⊢
  rw [run_bind]
  have reaches := first.reaches cursor
  cases reply : first.run cursor with
  | refused error after =>
      have echo := former cursor kinds
      rw [reply] at between same echo
      obtain ⟨error', refused, sameCause⟩ := (echo between tokens rest between' same).of_refused
      rw [refused]
      exact .refused _ sameCause
  | accepted value middle =>
      have echo := former cursor
      rw [reply] at between same reaches echo
      obtain ⟨before, begins⟩ := Between.of_suffix reaches.rest
      obtain ⟨behind, goesOn⟩ := Between.of_suffix ((next value).reaches middle).rest
      obtain rfl := between.unique (begins.trans goesOn)
      obtain ⟨middle', begins', goesOn'⟩ := between'.split
      obtain ⟨value', accepted, seenSame⟩ := (echo before begins tokens middle' begins'
        (frontKind_congr goesOn goesOn' same)).of_accepted
      rw [accepted]
      exact latter value value' seenSame middle behind goesOn middle' rest goesOn' same

/-- What is read first looks at nothing but the kind of a token. -/
theorem onKind {next next' : Token → Parser β}
    (each : ∀ token token' : Token, token'.kind = token.kind →
      Echoes seen' (next token) (next' token')) :
    Echoes seen' (Parser.current >>= next) (Parser.current >>= next') :=
  current.bind each

theorem refuse (cause : ParseError.Cause) : Echoes seen (refuse cause) (Parser.refuse cause) :=
  onKind fun _ _ _ => fail rfl

theorem unexpected (expected : Expectation) :
    Echoes seen (unexpected expected) (Parser.unexpected expected) := by
  apply onKind
  intro token token' same
  rw [same]
  split <;> exact refuse _

theorem isAt (mark : Symbol) : Echoes id (isAt mark) (Parser.isAt mark) :=
  onKind fun _ _ same => pure (by rw [same])

theorem onFlag {flag : Parser Bool} {next next' : Bool → Parser β} (former : Echoes id flag flag)
    (each : ∀ value, Echoes seen' (next value) (next' value)) :
    Echoes seen' (flag >>= next) (flag >>= next') := by
  apply former.bind
  rintro value value' rfl
  exact each _

theorem accept (mark : Symbol) : Echoes id (accept mark) (Parser.accept mark) := by
  apply (isAt mark).onFlag
  intro here
  split
  · exact advance.bind fun _ _ _ => pure rfl
  · exact pure rfl

theorem expect (mark : Symbol) : Echoes (fun _ => ()) (expect mark) (Parser.expect mark) := by
  apply onKind
  intro token token' _
  apply (accept mark).onFlag
  intro here
  split
  · exact pure rfl
  · exact unexpected _

section Loop

variable {continues : Kind → Option γ} {extend extend' : α → γ → Token → Parser α}

/-- A loop looks at nothing but what its rounds look at. -/
theorem extendRun (stops : continues .endOfInput = none)
    (step : ∀ value value' found token token', seen value' = seen value →
      token'.kind = token.kind → continues token.kind = some found →
        Echoes seen (extend value found token) (extend' value' found token'))
    {value value' : α} (seenSame : seen value' = seen value) (tokens : List Token) (nextId : Nat)
    (kinds : List Kind)
    (between : Between tokens kinds
      (Parser.extendRun continues extend value tokens nextId).after.rest)
    (tokens' rest : List Token) (between' : Between tokens' kinds rest)
    (same : frontKind rest =
      frontKind (Parser.extendRun continues extend value tokens nextId).after.rest) :
    Reply.Echo seen rest (Parser.extendRun continues extend value tokens nextId)
      (Parser.extendRun continues extend' value' tokens' nextId) := by
  fun_induction Parser.extendRun continues extend value tokens nextId
    generalizing kinds tokens' value' with
  | case1 value nextId =>
      obtain rfl := between.unique (Between.refl _)
      obtain rfl := between'.eq_of_nil
      change frontKind tokens' = .endOfInput at same
      rw [extendRun_of_none (by rw [same, stops])]
      exact .accepted ⟨[], nextId⟩ seenSame
  | case2 value token others nextId stopsHere =>
      obtain rfl := between.unique (Between.refl _)
      obtain rfl := between'.eq_of_nil
      change frontKind tokens' = token.kind at same
      rw [extendRun_of_none (by rw [same, stopsHere])]
      exact .accepted ⟨token :: others, nextId⟩ seenSame
  | case3 value token others nextId found goesOn extended middle reply ih =>
      have reaches := (extend value found token).reaches ⟨others, nextId⟩
      rw [reply] at reaches
      obtain ⟨round, begins⟩ := Between.of_suffix reaches.rest
      obtain ⟨further, goesOnBehind⟩ :=
        Between.of_suffix
          (reaches_extendRun continues extend extended middle.rest middle.nextId).rest
      obtain rfl := between.unique ((begins.trans goesOnBehind).cons token)
      obtain ⟨token', others', rfl, kind, between'⟩ := between'.uncons
      obtain ⟨middle', begins', goesOnBehind'⟩ := between'.split
      have echo := step value value' found token token' seenSame kind goesOn ⟨others, nextId⟩ round
      rw [reply] at echo
      obtain ⟨value'', accepted, seenSame'⟩ := (echo begins others' middle' begins'
        (frontKind_congr goesOnBehind goesOnBehind' same)).of_accepted
      rw [extendRun_of_some (by rw [kind, goesOn]) accepted]
      exact ih seenSame' further goesOnBehind middle' goesOnBehind' same
  | case4 value token others nextId found goesOn error middle reply =>
      have reaches := (extend value found token).reaches ⟨others, nextId⟩
      rw [reply] at reaches
      obtain ⟨round, begins⟩ := Between.of_suffix reaches.rest
      obtain rfl := between.unique (begins.cons token)
      obtain ⟨token', others', rfl, kind, begins'⟩ := between'.uncons
      have echo := step value value' found token token' seenSame kind goesOn ⟨others, nextId⟩ round
      rw [reply] at echo
      obtain ⟨error', refused, sameCause⟩ := (echo begins others' rest begins' same).of_refused
      rw [extendRun_of_refused (by rw [kind, goesOn]) refused]
      exact .refused _ sameCause

theorem extendWhile (stops : continues .endOfInput = none)
    (step : ∀ value value' found token token', seen value' = seen value →
      token'.kind = token.kind → continues token.kind = some found →
        Echoes seen (extend value found token) (extend' value' found token'))
    {value value' : α} (seenSame : seen value' = seen value) :
    Echoes seen (extendWhile continues extend value)
      (Parser.extendWhile continues extend' value') :=
  fun cursor kinds between tokens rest between' same =>
    extendRun stops step seenSame cursor.rest cursor.nextId kinds between tokens rest between' same

end Loop

end Echoes

/-! ## Forms of the grammar -/

abbrev listSeen (seen : α → σ) (result : List α × Span) : List σ := result.1.map seen

section Lists

variable {close : Symbol} {seen : α → σ} {single single' : Parser α}

theorem item_echoes (inner : Echoes seen single single') {items items' : List α}
    (same : items'.map seen = items.map seen) :
    Echoes (List.map seen) (item close single items) (item close single' items') := by
  apply (Echoes.isAt close).onFlag
  intro closes
  split
  · exact .pure same
  · refine inner.bind fun value value' seenSame => .pure ?_
    simp [same, seenSame]

theorem listUntil_echoes (inner : Echoes seen single single') :
    Echoes (listSeen seen) (listUntil close single) (listUntil close single') := by
  apply (item_echoes inner rfl).bind
  intro first first' same
  refine Echoes.bind (.extendWhile rfl ?_ same) ?_
  · exact fun _ _ _ _ _ sameItems _ _ => item_echoes inner sameItems
  intro items items' sameItems
  exact (Echoes.expect close).bind fun _ _ _ => .pure sameItems

end Lists

theorem name_echoes : Echoes Name.unplaced name name := by
  apply Echoes.onKind
  intro token token' same
  rw [same]
  split
  · apply Echoes.advance.bind
    intro _ _ _
    apply (Echoes.fresh token.span token'.span).bind
    intro info info' sameId
    exact .pure (congrArg (Name.mk _) (Info.unplaced_congr sameId))
  · exact .refuse _
  · exact .unexpected _

theorem node_echoes {seen : α → σ} {make make' : Info → α} (span span' : Span)
    (same : ∀ info info' : Info, info'.id = info.id → seen (make' info') = seen (make info)) :
    Echoes seen (do return make (← fresh span)) (do return make' (← fresh span')) :=
  (Echoes.fresh span span').bind fun info info' sameId => .pure (same info info' sameId)

section Forms

variable {expression expression' : Parser Expr}

theorem arguments_echoes (inner : Echoes Expr.unplaced expression expression') :
    Echoes (listSeen Expr.unplaced) (arguments expression) (arguments expression') :=
  (Echoes.expect .leftParen).bind fun _ _ _ => listUntil_echoes inner

theorem initializer_echoes (inner : Echoes Expr.unplaced expression expression')
    {given given' : Name} (same : given'.unplaced = given.unplaced) :
    Echoes Expr.unplaced (initializer expression given) (initializer expression' given') := by
  apply (Echoes.accept .colon).onFlag
  intro hasValue
  split
  · exact inner
  · apply node_echoes
    intro info info' sameId
    simp [Name.text_congr same, Info.unplaced_congr sameId]

theorem field_echoes (inner : Echoes Expr.unplaced expression expression') :
    Echoes Field.unplaced (field expression) (field expression') := by
  apply name_echoes.bind
  intro given given' sameName
  apply (initializer_echoes inner sameName).bind
  intro tree tree' sameTree
  apply node_echoes
  intro info info' sameId
  simp [Field.unplaced, sameName, sameTree, Info.unplaced_congr sameId]

theorem fields_echoes (inner : Echoes Expr.unplaced expression expression') :
    Echoes (listSeen Field.unplaced) (fields expression) (fields expression') :=
  (Echoes.expect .leftBrace).bind fun _ _ _ => listUntil_echoes (field_echoes inner)

theorem named_echoes (inner : Echoes Expr.unplaced expression expression') :
    Echoes Expr.unplaced (named expression) (named expression') := by
  apply name_echoes.bind
  intro given given' sameName
  apply (Echoes.isAt .leftParen).onFlag
  intro isCall
  split
  · apply (arguments_echoes inner).bind
    intro result result' sameItems
    apply node_echoes
    intro info info' sameId
    simp [sameName, sameItems, Info.unplaced_congr sameId]
  · apply (Echoes.isAt .leftBrace).onFlag
    intro isStruct
    split
    · apply (fields_echoes inner).bind
      intro result result' sameItems
      apply node_echoes
      intro info info' sameId
      simp [sameName, sameItems, Info.unplaced_congr sameId]
    · refine .pure ?_
      have sameInfo : given'.info.unplaced = given.info.unplaced := congrArg Name.info sameName
      simp [Name.text_congr sameName, sameInfo]

theorem initial_echoes (inner : Echoes Expr.unplaced expression expression') (start start' : Span) :
    Echoes Expr.unplaced (initial start expression) (initial start' expression') := by
  apply name_echoes.bind
  intro contract contract' sameName
  apply (arguments_echoes inner).bind
  intro result result' sameItems
  apply node_echoes
  intro info info' sameId
  simp [sameName, sameItems, Info.unplaced_congr sameId]

theorem primary_echoes (inner : Echoes Expr.unplaced expression expression') :
    Echoes Expr.unplaced (primary expression) (primary expression') := by
  apply Echoes.onKind
  intro token token' same
  -- a node without parts, made behind its only token
  have leaf (make : Info → Expr) (unplaced : ∀ info, (make info).unplaced = make info.unplaced) :
      Echoes Expr.unplaced (do return make (← fresh token.span))
        (do return make (← fresh token'.span)) :=
    node_echoes _ _ fun info info' sameId => by
      rw [unplaced, unplaced, Info.unplaced_congr sameId]
  rw [same]
  split
  · exact Echoes.advance.bind fun _ _ _ => leaf _ fun _ => rfl
  · exact Echoes.advance.bind fun _ _ _ => leaf _ fun _ => rfl
  · apply Echoes.advance.bind
    intro _ _ _
    split
    · exact leaf _ fun _ => rfl
    · exact .fail rfl
  · exact Echoes.advance.bind fun _ _ _ => leaf _ fun _ => rfl
  · exact Echoes.advance.bind fun _ _ _ => initial_echoes inner _ _
  · exact named_echoes inner
  · apply Echoes.advance.bind
    intro _ _ _
    apply inner.bind
    intro tree tree' sameTree
    exact (Echoes.expect .rightParen).bind fun _ _ _ => .pure sameTree
  · exact .unexpected _

theorem member_echoes (inner : Echoes Expr.unplaced expression expression')
    {receiver receiver' : Expr} (sameReceiver : receiver'.unplaced = receiver.unplaced) :
    Echoes Expr.unplaced (member expression receiver) (member expression' receiver') := by
  apply name_echoes.bind
  intro given given' sameName
  apply (Echoes.isAt .leftParen).onFlag
  intro isCall
  split
  · apply (arguments_echoes inner).bind
    intro result result' sameItems
    apply node_echoes
    intro info info' sameId
    simp [sameReceiver, sameName, sameItems, Info.unplaced_congr sameId]
  · apply node_echoes
    intro info info' sameId
    simp [sameReceiver, sameName, Info.unplaced_congr sameId]

theorem suffix_echoes (inner : Echoes Expr.unplaced expression expression')
    {operand operand' : Expr} (sameOperand : operand'.unplaced = operand.unplaced)
    (found : Suffix) (token token' : Token) :
    Echoes Expr.unplaced (suffix expression operand found token)
      (suffix expression' operand' found token') := by
  cases found with
  | notNull =>
      apply node_echoes
      intro info info' sameId
      simp [sameOperand, Info.unplaced_congr sameId]
  | member => exact member_echoes inner sameOperand

theorem suffixed_echoes (inner : Echoes Expr.unplaced expression expression') :
    Echoes Expr.unplaced (suffixed expression) (suffixed expression') := by
  apply (primary_echoes inner).bind
  intro operand operand' same
  exact .extendWhile rfl
    (fun _ _ found token token' sameOperand _ _ =>
      suffix_echoes inner sameOperand found token token')
    same

theorem applySigns_echoes (start start' : Span) (signs : List UnaryOp) {operand operand' : Expr}
    (same : operand'.unplaced = operand.unplaced) :
    Echoes Expr.unplaced (applySigns start signs operand) (applySigns start' signs operand') := by
  induction signs generalizing operand operand' with
  | nil => exact .pure same
  | cons op outer ih =>
      apply (Echoes.fresh _ _).bind
      intro info info' sameId
      exact ih (by simp [same, Info.unplaced_congr sameId])

theorem signed_echoes {operand operand' : Parser Expr}
    (inner : Echoes Expr.unplaced expression expression')
    (unsigned : Echoes Expr.unplaced operand operand') :
    Echoes Expr.unplaced (signed expression operand) (signed expression' operand') := by
  apply Echoes.onKind
  intro token token' same
  rw [same]
  split
  · exact unsigned
  · apply Echoes.advance.bind
    intro _ _ _
    apply inner.bind
    intro tree tree' sameTree
    exact applySigns_echoes _ _ _ sameTree

theorem leftChain_echoes (inner : Echoes Expr.unplaced expression expression') (strength : Nat) :
    Echoes Expr.unplaced (leftChain strength expression) (leftChain strength expression') := by
  apply inner.bind
  intro first first' same
  refine .extendWhile rfl ?_ same
  intro left left' op token token' sameLeft _ _
  apply inner.bind
  intro right right' sameRight
  apply node_echoes
  intro info info' sameId
  simp [sameLeft, sameRight, Info.unplaced_congr sameId]

theorem binary_echoes (inner : Echoes Expr.unplaced expression expression') (least : Nat) :
    Echoes Expr.unplaced (binary expression least) (binary expression' least) := by
  unfold binary
  induction List.range' least (Precedence.sign - least) with
  | nil => exact inner
  | cons strength rest ih => exact leftChain_echoes ih strength

theorem conditional_echoes {operand operand' : Parser Expr}
    (inner : Echoes Expr.unplaced operand operand')
    (innerExpression : Echoes Expr.unplaced expression expression') :
    Echoes Expr.unplaced (conditional operand expression) (conditional operand' expression') := by
  apply (binary_echoes inner _).bind
  intro condition condition' sameCondition
  apply (Echoes.accept .question).onFlag
  intro asks
  split
  · apply (binary_echoes inner _).bind
    intro consequent consequent' sameConsequent
    apply (Echoes.expect .colon).bind
    intro _ _ _
    apply innerExpression.bind
    intro alternative alternative' sameAlternative
    apply node_echoes
    intro info info' sameId
    simp [sameCondition, sameConsequent, sameAlternative, Info.unplaced_congr sameId]
  · exact .pure sameCondition

end Forms

/-! ## Levels -/

theorem withLeft_echoes (left : Nat) :
    Echoes Expr.unplaced (Level.withLeft left).expression (Level.withLeft left).expression ∧
      Echoes Expr.unplaced (Level.withLeft left).operand (Level.withLeft left).operand := by
  induction left with
  | zero => exact ⟨.refuse _, signed_echoes (.refuse _) (suffixed_echoes (.refuse _))⟩
  | succ left ih =>
      have expression := conditional_echoes ih.2 ih.1
      exact ⟨expression, signed_echoes ih.2 (suffixed_echoes expression)⟩

theorem complete_echoes (left : Nat) :
    Echoes Expr.unplaced (complete (expressionWithin left)) (complete (expressionWithin left)) := by
  apply (withLeft_echoes left).1.bind
  intro tree tree' sameTree
  apply Echoes.onKind
  intro token token' same
  rw [same]
  split
  · exact .pure sameTree
  · exact .unexpected _

end Parser
end ContractExpr
