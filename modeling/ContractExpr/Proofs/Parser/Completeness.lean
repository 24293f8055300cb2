import ContractExpr.Proofs.Parser.Acceptance

/-! # What is derived the parser accepts

On tokens that the grammar derives a tree from, the parser for the form accepts with a tree alike
to it, provided that the token behind them cannot go on with the form. Forms that are read by a
loop are brought up to the loop only, so that a longer phrase of the form can take over from there.
-/

set_option autoImplicit false

namespace ContractExpr.Parser

open Token Grammar

/-! ## Forms of the grammar -/

section Forms

variable {expression : Parser Expr} {kinds : List Kind}

theorem arguments_completes {entries : List (Expr × List Kind)}
    (takes : ∀ entry ∈ entries, Takes .rightParen expression
      (fun value tree => value.alike tree = true) entry)
    (listing : Listing (entries.map Prod.snd) kinds) :
    Completes (arguments expression) (fun _ => True)
      (.symbol .leftParen :: (kinds ++ [.symbol .rightParen]))
      fun result => Expr.alikeLists result.1 (entries.map Prod.fst) = true := by
  apply (completes_expect .leftParen).andThen
  intro _ _ cursor rest between ended
  obtain ⟨result, nextId, accepted, same⟩ :=
    listUntil_completes (by decide) takes listing cursor rest between ended
  exact ⟨result, nextId, accepted, Expr.alikeLists_iff.mpr same⟩

theorem fields_completes {entries : List (Field Expr × List Kind)}
    (takes : ∀ entry ∈ entries, Takes .rightBrace (field expression) Expr.AlikeFields entry)
    (listing : Listing (entries.map Prod.snd) kinds) :
    Completes (fields expression) (fun _ => True)
      (.symbol .leftBrace :: (kinds ++ [.symbol .rightBrace]))
      fun result => Expr.alikeFields result.1 (entries.map Prod.fst) = true := by
  apply (completes_expect .leftBrace).andThen
  intro _ _ cursor rest between ended
  obtain ⟨result, nextId, accepted, same⟩ :=
    listUntil_completes (by decide) takes listing cursor rest between ended
  exact ⟨result, nextId, accepted, Expr.alikeFields_iff.mpr same⟩

/-! ### Fields -/

theorem briefField_completes (expression : Parser Expr) (given : Name) (valueInfo info : Info) :
    Completes (field expression)
      (fun kind => kind = .symbol .comma ∨ kind = .symbol .rightBrace) [.name given.text]
      (Expr.AlikeFields · ⟨given, .identifier given.text valueInfo, info⟩) := by
  apply (completes_name given.text).andThen
  intro read named cursor rest between ended
  obtain rfl := between.eq_of_nil
  have noColon : frontKind cursor.rest ≠ .symbol .colon := by
    rcases ended with comma | close
    · simp [comma]
    · simp [close]
  have initialized : (initializer expression read).run cursor =
      .accepted (.identifier read.text ⟨cursor.nextId, read.info.span⟩)
        ⟨cursor.rest, cursor.nextId + 1⟩ := by
    unfold initializer
    rw [run_accept_bind_of_ne noColon]
    simp
  rw [run_bind_of_accepted initialized]
  exact ⟨_, _, rfl, named, by simp [Expr.alike, named]⟩

theorem field_completes {tree : Expr} (given : Name) (info : Info)
    (inner : Completes expression EndsExpression kinds fun value => value.alike tree = true) :
    Completes (field expression)
      (fun kind => kind = .symbol .comma ∨ kind = .symbol .rightBrace)
      (.name given.text :: .symbol .colon :: kinds) (Expr.AlikeFields · ⟨given, tree, info⟩) := by
  apply (completes_name given.text).andThen
  intro read named cursor rest between ended
  have colon := frontKind_of_between between
  have ends : EndsExpression (frontKind rest) := by
    rcases ended with comma | close
    · rw [comma]
      exact endsExpression_comma
    · rw [close]
      exact endsExpression_rightBrace
  obtain ⟨value, nextId, accepted, same⟩ :=
    inner cursor.advance rest (Cursor.advance_between between rfl) ends
  have initialized : (initializer expression read).run cursor = .accepted value ⟨rest, nextId⟩ := by
    unfold initializer
    rw [run_accept_bind_of_eq colon]
    exact accepted
  rw [run_bind_of_accepted initialized]
  exact ⟨_, _, rfl, named, same⟩

/-! ### Primary expressions -/

section Primary

variable {trees : List Expr} {behind : List Kind}

theorem call_completes (function : Name) (info : Info)
    (given : Completes (arguments expression) (fun _ => True) (.symbol .leftParen :: behind)
      fun result => Expr.alikeLists result.1 trees = true) :
    Completes (named expression) EndsPrimary (.name function.text :: .symbol .leftParen :: behind)
      fun value => value.alike (.call function trees info) = true := by
  apply (completes_name function.text).andThen
  intro read isName cursor rest between ended
  rw [run_isAt_bind, frontKind_of_between between]
  have node := fun (result : List Expr × Span) (same : Expr.alikeLists result.1 trees = true) =>
    completes_node (.call read result.1) (read.info.span.merge result.2) EndsPrimary
      fun _ => (by simp [Expr.alike, isName, same] :
        (Expr.call read result.1 _).alike (.call function trees info) = true)
  rw [← List.append_nil (_ :: behind)] at between
  exact given.andThen node cursor rest between ended

theorem structInstance_completes (type : Name) (info : Info) {entries : List (Field Expr)}
    (given : Completes (fields expression) (fun _ => True) (.symbol .leftBrace :: behind)
      fun result => Expr.alikeFields result.1 entries = true) :
    Completes (named expression) EndsPrimary (.name type.text :: .symbol .leftBrace :: behind)
      fun value => value.alike (.structInstance type entries info) = true := by
  apply (completes_name type.text).andThen
  intro read isName cursor rest between ended
  rw [run_isAt_bind, frontKind_of_between between]
  have node := fun (result : List (Field Expr) × Span)
      (same : Expr.alikeFields result.1 entries = true) =>
    completes_node (.structInstance read result.1) (read.info.span.merge result.2) EndsPrimary
      fun _ => (by simp [Expr.alike, isName, same] :
        (Expr.structInstance read result.1 _).alike (.structInstance type entries info) = true)
  have accepted := given.andThen node cursor rest (by rwa [List.append_nil]) ended
  obtain ⟨value, nextId, run, same⟩ := accepted
  refine ⟨value, nextId, ?_, same⟩
  rw [← run]
  simp [frontKind_of_between between]

theorem identifier_completes (expression : Parser Expr) (text : String) (info : Info) :
    Completes (named expression) EndsPrimary [.name text]
      fun value => value.alike (.identifier text info) = true := by
  apply (completes_name text).andThen
  intro read isName cursor rest between ended
  obtain rfl := between.eq_of_nil
  refine ⟨.identifier read.text read.info, cursor.nextId, ?_, by simp [Expr.alike, isName]⟩
  simp [ended.noCall, ended.noStruct]

theorem named_completes {text : String} {tree : Expr}
    (given : Completes (named expression) EndsPrimary (.name text :: kinds)
      fun value => value.alike tree = true) :
    Completes (primary expression) EndsPrimary (.name text :: kinds)
      fun value => value.alike tree = true := by
  intro cursor rest between ended
  unfold primary
  rw [run_current_bind, Cursor.current_kind, frontKind_of_between between]
  exact given cursor rest between ended

theorem initOf_completes (contract : Name) (info : Info)
    (given : Completes (arguments expression) (fun _ => True) (.symbol .leftParen :: behind)
      fun result => Expr.alikeLists result.1 trees = true) :
    Completes (primary expression) EndsPrimary
      (.initOf :: .name contract.text :: .symbol .leftParen :: behind)
      fun value => value.alike (.initOf contract trees info) = true := by
  intro cursor rest between ended
  unfold primary
  rw [run_current_bind, Cursor.current_kind, frontKind_of_between between, run_advance_bind]
  have node := fun (read : Name) (isName : read.text = contract.text) (result : List Expr × Span)
      (same : Expr.alikeLists result.1 trees = true) =>
    completes_node (.initOf read result.1) (cursor.current.span.merge result.2) EndsPrimary
      fun _ => (by simp [Expr.alike, isName, same] :
        (Expr.initOf read result.1 _).alike (.initOf contract trees info) = true)
  have whole := (completes_name contract.text).andThen fun read isName =>
    given.andThen (node read isName)
  exact whole cursor.advance rest
    (by rw [List.append_nil]; exact Cursor.advance_between between rfl) ended

theorem group_completes {tree : Expr}
    (inner : Completes expression EndsExpression kinds fun value => value.alike tree = true) :
    Completes (primary expression) EndsPrimary
      (.symbol .leftParen :: (kinds ++ [.symbol .rightParen]))
      fun value => value.alike tree = true := by
  intro cursor rest between ended
  unfold primary
  rw [run_current_bind, Cursor.current_kind, frontKind_of_between between, run_advance_bind]
  obtain ⟨middle, inside, closes⟩ := (Cursor.advance_between between rfl).split
  have ends : EndsExpression (frontKind middle) := by
    rw [frontKind_of_between closes]
    exact endsExpression_rightParen
  obtain ⟨value, nextId, accepted, same⟩ := inner cursor.advance middle inside ends
  obtain ⟨span, nextId', closed, _⟩ :=
    completes_expect .rightParen ⟨middle, nextId⟩ rest closes trivial
  refine ⟨value, nextId', ?_, same⟩
  rw [run_bind_of_accepted accepted, run_bind_of_accepted closed, run_pure]

theorem literal_completes {kind : Kind} {tree : Expr} (make : Info → Expr)
    (more : kind.isEnd = false) (same : ∀ info, (make info).alike tree = true)
    (reads : ∀ cursor : Cursor, cursor.current.kind = kind → (primary expression).run cursor =
      (do return make (← fresh cursor.current.span) : Parser Expr).run cursor.advance) :
    Completes (primary expression) EndsPrimary [kind] fun value => value.alike tree = true := by
  intro cursor rest between ended
  rw [reads cursor (frontKind_of_between between)]
  exact completes_node make _ EndsPrimary same cursor.advance rest
    (Cursor.advance_between between more) ended

theorem boolean_completes (expression : Parser Expr) (value : Bool) (info : Info) :
    Completes (primary expression) EndsPrimary [.boolean value]
      fun read => read.alike (.boolean value info) = true := by
  apply literal_completes (.boolean value) rfl (by simp [Expr.alike])
  intro cursor here
  unfold primary
  rw [run_current_bind, here, run_advance_bind]

theorem null_completes (expression : Parser Expr) (info : Info) :
    Completes (primary expression) EndsPrimary [.null]
      fun read => read.alike (.null info) = true := by
  apply literal_completes .null rfl (by simp [Expr.alike])
  intro cursor here
  unfold primary
  rw [run_current_bind, here, run_advance_bind]

theorem string_completes (expression : Parser Expr) (content : String) (info : Info) :
    Completes (primary expression) EndsPrimary [.string content]
      fun read => read.alike (.string content info) = true := by
  apply literal_completes (.string content) rfl (by simp [Expr.alike])
  intro cursor here
  unfold primary
  rw [run_current_bind, here, run_advance_bind]

theorem number_completes (expression : Parser Expr) {base : Base} {digits : String}
    {value : Number} (read : Number.ofDigits? base digits.toList = some value) (info : Info) :
    Completes (primary expression) EndsPrimary [.number base digits]
      fun tree => tree.alike (.number value info) = true := by
  apply literal_completes (.number value) rfl (by simp [Expr.alike])
  intro cursor here
  unfold primary
  rw [run_current_bind, here, run_advance_bind, read]

end Primary

/-! ### Behind and before an operand -/

section Suffix

variable {tree : Expr}

theorem endsPrimary_doubleBang : EndsPrimary (.symbol .doubleBang) := ⟨by decide, by decide⟩

theorem endsPrimary_dot : EndsPrimary (.symbol .dot) := ⟨by decide, by decide⟩

abbrev CompletesSuffixes (expression : Parser Expr) (kinds : List Kind) (tree : Expr) : Prop :=
  CompletesLoop (suffixed expression) suffix? (suffix expression) EndsPrimary kinds
    fun value => value.alike tree = true

theorem unsuffixed_completes
    (inner : Completes (primary expression) EndsPrimary kinds
      fun value => value.alike tree = true) :
    CompletesSuffixes expression kinds tree := by
  intro cursor rest between ended
  obtain ⟨value, nextId, accepted, same⟩ := inner cursor rest between ended
  refine ⟨value, nextId, ?_, same⟩
  unfold suffixed
  rw [run_bind_of_accepted accepted]
  rfl

theorem notNull_completes (info : Info) (inner : CompletesSuffixes expression kinds tree) :
    CompletesSuffixes expression (kinds ++ [.symbol .doubleBang]) (.unary .notNull tree info) := by
  intro cursor rest between ended
  obtain ⟨middle, operand, further⟩ := between.split
  obtain ⟨value, nextId, looped, same⟩ := inner cursor middle operand
    (by rw [frontKind_of_between further]; exact endsPrimary_doubleBang)
  obtain ⟨token, tail, rfl, isBang, ends⟩ := further.uncons
  obtain rfl := ends.eq_of_nil
  have goesOn : suffix? token.kind = some .notNull := by rw [isBang]; rfl
  have step : (suffix expression value .notNull token).run ⟨tail, nextId⟩ =
      .accepted (.unary .notNull value ⟨nextId, value.span.merge token.span⟩)
        ⟨tail, nextId + 1⟩ := rfl
  exact ⟨_, _, by rw [looped, extendRun_of_some goesOn step], by simp [Expr.alike, same]⟩

theorem fieldAccess_completes (accessed : Name) (info : Info)
    (inner : CompletesSuffixes expression kinds tree) :
    CompletesSuffixes expression (kinds ++ [.symbol .dot, .name accessed.text])
      (.fieldAccess tree accessed info) := by
  intro cursor rest between ended
  obtain ⟨middle, operand, further⟩ := between.split
  obtain ⟨value, nextId, looped, same⟩ := inner cursor middle operand
    (by rw [frontKind_of_between further]; exact endsPrimary_dot)
  obtain ⟨token, tail, rfl, isDot, named⟩ := further.uncons
  obtain ⟨read, nextId', accepted, isName⟩ :=
    completes_name accessed.text ⟨tail, nextId⟩ rest named trivial
  have goesOn : suffix? token.kind = some .member := by rw [isDot]; rfl
  have step : (suffix expression value .member token).run ⟨tail, nextId⟩ =
      .accepted (.fieldAccess value read ⟨nextId', value.span.merge read.info.span⟩)
        ⟨rest, nextId' + 1⟩ := by
    simp only [suffix, member]
    rw [run_bind_of_accepted accepted]
    simp [ended.noCall]
  exact ⟨_, _, by rw [looped, extendRun_of_some goesOn step], by simp [Expr.alike, same, isName]⟩

theorem methodCall_completes {trees : List Expr} {behind : List Kind} (method : Name) (info : Info)
    (inner : CompletesSuffixes expression kinds tree)
    (given : Completes (arguments expression) (fun _ => True) (.symbol .leftParen :: behind)
      fun result => Expr.alikeLists result.1 trees = true) :
    CompletesSuffixes expression
      (kinds ++ .symbol .dot :: .name method.text :: .symbol .leftParen :: behind)
      (.methodCall tree method trees info) := by
  intro cursor rest between ended
  obtain ⟨middle, operand, further⟩ := between.split
  obtain ⟨value, nextId, looped, same⟩ := inner cursor middle operand
    (by rw [frontKind_of_between further]; exact endsPrimary_dot)
  obtain ⟨token, tail, rfl, isDot, called⟩ := further.uncons
  rw [← List.singleton_append] at called
  obtain ⟨opening, named, argued⟩ := called.split
  obtain ⟨read, nextId', accepted, isName⟩ :=
    completes_name method.text ⟨tail, nextId⟩ opening named trivial
  obtain ⟨result, nextId'', accepted', sames⟩ := given ⟨opening, nextId'⟩ rest argued trivial
  have goesOn : suffix? token.kind = some .member := by rw [isDot]; rfl
  have step : (suffix expression value .member token).run ⟨tail, nextId⟩ =
      .accepted (.methodCall value read result.1 ⟨nextId'', value.span.merge result.2⟩)
        ⟨rest, nextId'' + 1⟩ := by
    simp only [suffix, member]
    rw [run_bind_of_accepted accepted, run_isAt_bind, frontKind_of_between argued]
    simp [run_bind_of_accepted accepted']
  exact ⟨_, _, by rw [looped, extendRun_of_some goesOn step],
    by simp [Expr.alike, same, isName, sames]⟩

theorem unsigned_completes (inner : Parser Expr) {first : Kind} {behind : List Kind}
    (noSign : first.signs = []) (looped : CompletesSuffixes expression (first :: behind) tree) :
    Completes (signed inner (suffixed expression)) EndsOperand (first :: behind)
      fun value => value.alike tree = true := by
  intro cursor rest between ended
  obtain ⟨value, nextId, accepted, same⟩ := looped cursor rest between ended.toEndsPrimary
  refine ⟨value, nextId, ?_, same⟩
  unfold signed
  rw [run_current_bind, Cursor.current_kind, frontKind_of_between between]
  simp only [noSign]
  rw [accepted, extendRun_of_none ended.noSuffix]

theorem sign_completes {inner operand : Parser Expr} (op : UnaryOp) (info : Info)
    (leads : op.followsOperand = false)
    (within : Completes inner EndsOperand kinds fun value => value.alike tree = true) :
    Completes (signed inner operand) EndsOperand (.symbol op.symbol :: kinds)
      fun value => value.alike (.unary op tree info) = true := by
  intro cursor rest between ended
  obtain ⟨value, nextId, accepted, same⟩ :=
    within cursor.advance rest (Cursor.advance_between between rfl) ended
  unfold signed
  rw [run_current_bind, Cursor.current_kind, frontKind_of_between between]
  simp only [Kind.signs, signs_symbol leads, run_advance_bind]
  rw [run_bind_of_accepted accepted]
  exact ⟨_, _, rfl, by simp [Expr.alike, same]⟩

theorem doubleNot_completes {inner operand : Parser Expr} (near far : Info)
    (within : Completes inner EndsOperand kinds fun value => value.alike tree = true) :
    Completes (signed inner operand) EndsOperand (.symbol .doubleBang :: kinds)
      fun value => value.alike (.unary .not (.unary .not tree near) far) = true := by
  intro cursor rest between ended
  obtain ⟨value, nextId, accepted, same⟩ :=
    within cursor.advance rest (Cursor.advance_between between rfl) ended
  unfold signed
  rw [run_current_bind, Cursor.current_kind, frontKind_of_between between]
  simp only [Kind.signs, Symbol.signs, run_advance_bind]
  rw [run_bind_of_accepted accepted]
  exact ⟨_, _, rfl, by simp [Expr.alike, same]⟩

end Suffix

/-! ### Between operands -/

section Chain

variable {operand : Parser Expr} {least : Nat} {tree : Expr}

abbrev CompletesChain (operand : Parser Expr) (least : Nat) (kinds : List Kind) (tree : Expr) :
    Prop :=
  CompletesLoop (binary operand least) (operatorOf? least) (chainStep (binary operand (least + 1)))
    (EndsChain (least + 1)) kinds fun value => value.alike tree = true

theorem CompletesChain.completes (looped : CompletesChain operand least kinds tree) :
    Completes (binary operand least) (EndsChain least) kinds
      fun value => value.alike tree = true := by
  intro cursor rest between ended
  obtain ⟨value, nextId, accepted, same⟩ :=
    looped cursor rest between (ended.mono (Nat.le_succ least))
  exact ⟨value, nextId, by rw [accepted, extendRun_of_none (operatorOf?_of_ends ended)], same⟩

theorem tighter_completes (below : least < Precedence.sign)
    (looped : CompletesChain operand (least + 1) kinds tree) :
    CompletesChain operand least kinds tree := by
  intro cursor rest between ended
  obtain ⟨value, nextId, accepted, same⟩ := looped.completes cursor rest between ended
  refine ⟨value, nextId, ?_, same⟩
  rw [binary_of_lt below, leftChain_eq, run_bind_of_accepted accepted]
  rfl

theorem operand_completes
    (inner : Completes operand EndsOperand kinds fun value => value.alike tree = true) :
    CompletesChain operand Precedence.sign kinds tree := by
  intro cursor rest between ended
  obtain ⟨value, nextId, accepted, same⟩ := inner cursor rest between ended.toEndsOperand
  refine ⟨value, nextId, ?_, same⟩
  have stops : operatorOf? Precedence.sign (frontKind rest) = none := by
    apply Option.filter_eq_none_iff.mpr
    intro op _
    have looser := op.precedence_lt_sign
    simp
    omega
  rw [binary_sign, accepted, extendRun_of_none stops]

theorem binary_completes {right : Expr} {before behind : List Kind} (op : BinaryOp) (info : Info)
    (former : CompletesChain operand op.precedence before tree)
    (latter : CompletesChain operand (op.precedence + 1) behind right) :
    CompletesChain operand op.precedence (before ++ .symbol op.symbol :: behind)
      (.binary op tree right info) := by
  intro cursor rest between ended
  obtain ⟨middle, begins, further⟩ := between.split
  obtain ⟨value, nextId, looped, same⟩ := former cursor middle begins
    (by rw [frontKind_of_between further]; exact endsChain_of_operator op)
  obtain ⟨token, tail, rfl, isOperator, between'⟩ := further.uncons
  obtain ⟨value', nextId', accepted, same'⟩ :=
    latter.completes ⟨tail, nextId⟩ rest between' ended
  have goesOn : operatorOf? op.precedence token.kind = some op := by
    rw [isOperator]
    exact operatorOf?_symbol op
  have step : (chainStep (binary operand (op.precedence + 1)) value op token).run ⟨tail, nextId⟩ =
      .accepted (.binary op value value' ⟨nextId', value.span.merge value'.span⟩)
        ⟨rest, nextId' + 1⟩ := by
    unfold chainStep
    rw [run_bind_of_accepted accepted]
    rfl
  exact ⟨_, _, by rw [looped, extendRun_of_some goesOn step], by simp [Expr.alike, same, same']⟩

theorem unconditional_completes (expression : Parser Expr)
    (looped : CompletesChain operand Precedence.loosestBinary kinds tree) :
    Completes (conditional operand expression) EndsExpression kinds
      fun value => value.alike tree = true := by
  intro cursor rest between ended
  obtain ⟨value, nextId, accepted, same⟩ :=
    looped.completes cursor rest between ended.toEndsChain
  refine ⟨value, nextId, ?_, same⟩
  unfold conditional
  rw [run_bind_of_accepted accepted, run_accept_bind_of_ne ended.noQuestion]
  rfl

theorem conditional_completes {consequent alternative : Expr} {before between behind : List Kind}
    (info : Info) (first : CompletesChain operand Precedence.loosestBinary before tree)
    (second : CompletesChain operand Precedence.loosestBinary between consequent)
    (third : Completes expression EndsExpression behind
      fun value => value.alike alternative = true) :
    Completes (conditional operand expression) EndsExpression
      (before ++ .symbol .question :: (between ++ .symbol .colon :: behind))
      fun value => value.alike (.conditional tree consequent alternative info) = true := by
  refine first.completes.bind (fun condition same => ?_) fun tokens rest further _ => ?_
  · intro cursor rest further ended
    have branches : Completes (α := Expr) (do
          let consequent ← binary operand Precedence.loosestBinary
          let _ ← expect .colon
          let alternative ← expression
          let info ← fresh (condition.span.merge alternative.span)
          return .conditional condition consequent alternative info)
        EndsExpression (between ++ .symbol .colon :: behind)
        fun value => value.alike (.conditional tree consequent alternative info) = true := by
      refine second.completes.bind (fun value same' => ?_) fun tokens rest colon _ => ?_
      · apply (completes_expect .colon).andThen
        intro _ _
        rw [← List.append_nil behind]
        refine third.bind (fun value' same'' => ?_) fun tokens rest between ended => ?_
        · exact completes_node (.conditional condition value value') _ _
            fun _ => by simp [Expr.alike, same, same', same'']
        · rw [between.eq_of_nil]
          exact ended
      · rw [frontKind_of_between colon]
        exact endsChain_colon _
    rw [run_accept_bind_of_eq (frontKind_of_between further)]
    exact branches cursor.advance rest (Cursor.advance_between further rfl) ended
  · rw [frontKind_of_between further]
    exact endsChain_question _

end Chain

end Forms

/-! ## Levels -/

/-- What the parser for a form does on the tokens of a phrase of this form. -/
def Completed (left : Nat) (kinds : List Kind) : Phrase → Prop
  | .expression tree =>
    Completes (Level.withLeft left).expression EndsExpression kinds fun value =>
      value.alike tree = true
  | .chain least tree => CompletesChain (Level.withLeft left).operand least kinds tree
  | .signed tree =>
    Completes (Level.withLeft left).operand EndsOperand kinds fun value => value.alike tree = true
  | .suffixed tree => CompletesSuffixes (Level.withLeft left).expression kinds tree
  | .primary tree =>
    Completes (primary (Level.withLeft left).expression) EndsPrimary kinds fun value =>
      value.alike tree = true
  | .arguments trees =>
    Completes (arguments (Level.withLeft left).expression) (fun _ => True) kinds fun result =>
      Expr.alikeLists result.1 trees = true
  | .field entry =>
    Completes (field (Level.withLeft left).expression)
      (fun kind => kind = .symbol .comma ∨ kind = .symbol .rightBrace) kinds (Expr.AlikeFields · entry)
  | .fields entries =>
    Completes (fields (Level.withLeft left).expression) (fun _ => True) kinds fun result =>
      Expr.alikeFields result.1 entries = true

theorem operand_withLeft (left : Nat) :
    ∃ inner, (Level.withLeft left).operand =
      signed inner (suffixed (Level.withLeft left).expression) := by
  cases left <;> exact ⟨_, rfl⟩

theorem completed {brief : Bool} {left : Nat} {phrase : Phrase} {kinds : List Kind}
    (derived : Derives brief left phrase kinds) : Completed left kinds phrase := by
  induction derived with
  | unconditional _ ih => exact unconditional_completes _ ih
  | conditional info _ _ _ first second third => exact conditional_completes info first second third
  | tighter below _ ih => exact tighter_completes below ih
  | binary op info _ _ former latter => exact binary_completes op info former latter
  | operand _ ih => exact operand_completes ih
  | sign op info leads _ ih => exact sign_completes op info leads ih
  | doubleNot near far _ ih => exact doubleNot_completes near far ih
  | @unsigned left _ _ derived ih =>
      obtain ⟨inner, isSigned⟩ := operand_withLeft left
      obtain ⟨first, rest, rfl, begins⟩ := derived.begins
      rw [Completed, isSigned]
      exact unsigned_completes inner (signs_of_beginsPrimary begins) ih
  | unsuffixed _ ih => exact unsuffixed_completes ih
  | notNull info _ ih => exact notNull_completes info ih
  | fieldAccess accessed info _ ih => exact fieldAccess_completes accessed info ih
  | methodCall method info _ derived ih given =>
      obtain ⟨_, _, rfl, rfl⟩ := derived.begins
      exact methodCall_completes method info ih given
  | number info read => exact number_completes _ read info
  | boolean value info => exact boolean_completes _ value info
  | null info => exact null_completes _ info
  | string content info => exact string_completes _ content info
  | identifier name info => exact named_completes (identifier_completes _ name info)
  | call function info derived given =>
      obtain ⟨_, _, rfl, rfl⟩ := derived.begins
      exact named_completes (call_completes function info given)
  | structInstance type info derived given =>
      obtain ⟨_, _, rfl, rfl⟩ := derived.begins
      exact named_completes (structInstance_completes type info given)
  | initOf contract info derived given =>
      obtain ⟨_, _, rfl, rfl⟩ := derived.begins
      exact initOf_completes contract info given
  | group _ ih => exact group_completes ih
  | arguments entries derived listed ih =>
      refine arguments_completes (fun entry member => ⟨?_, ?_⟩) listed
      · intro cursor rest between ended
        refine ih entry member cursor rest between ?_
        rcases ended with comma | close
        · rw [comma]
          exact endsExpression_comma
        · rw [close]
          exact endsExpression_rightParen
      · obtain ⟨first, rest, run, begins⟩ := (derived entry member).begins
        refine ⟨first, rest, run, ?_⟩
        rintro rfl
        rcases begins with begins | begins
        · cases begins
        · exact begins rfl
  | briefField _ given valueInfo info => exact briefField_completes _ given valueInfo info
  | field given info _ ih => exact field_completes given info ih
  | fields entries derived listed ih =>
      refine fields_completes (fun entry member => ⟨ih entry member, ?_⟩) listed
      obtain ⟨first, rest, run, text, rfl⟩ := (derived entry member).begins
      exact ⟨_, rest, run, by simp⟩

end ContractExpr.Parser
