import ContractExpr.Proofs.Parser.Building

/-! # What the parser accepts is derived

Whatever tokens a parser moves over when it accepts, the grammar derives what it gives from them,
since they build it. The loops of a parser have lemmas of their own: what a round of theirs gives is
derived from the tokens of the rounds before it, whichever value these rounds gave.
-/

set_option autoImplicit false

namespace ContractExpr.Parser

open Token Grammar

/-- When the parser accepts, what it gives has the given meaning for the tokens it moved over. -/
def Sound {α : Type} (parser : Parser α) (means : α → List Kind → Prop) : Prop :=
  ∀ cursor value after, parser.run cursor = .accepted value after →
    ∃ kinds, Between cursor.rest kinds after.rest ∧ means value kinds

theorem Sound.imp {α : Type} {parser : Parser α} {means means' : α → List Kind → Prop}
    (sound : Sound parser means) (weaker : ∀ value kinds, means value kinds → means' value kinds) :
    Sound parser means' := by
  intro cursor value after accepted
  obtain ⟨kinds, between, meant⟩ := sound cursor value after accepted
  exact ⟨kinds, between, weaker value kinds meant⟩

/-- The places of the tokens and the identities may be left out of what is built. -/
theorem Building.sound {α : Type} {parser : Parser α}
    {means : α → List Token → Nat → Nat → Prop} {means' : α → List Kind → Prop}
    (building : Building parser means)
    (weaker : ∀ value tokens first next,
      means value tokens first next → means' value (tokens.map Token.kind)) :
    Sound parser means' := by
  intro cursor value after accepted
  obtain ⟨tokens, whole, meant⟩ := building cursor value after accepted
  exact ⟨_, ⟨tokens, whole, rfl⟩, weaker _ _ _ _ meant⟩

theorem name_sound : Sound name fun name kinds => kinds = [.name name.text] := by
  refine name_building.sound ?_
  rintro name _ first next ⟨token, rfl, names, _⟩
  rw [List.map_singleton, names.kind]

theorem expect_sound (mark : Symbol) : Sound (expect mark) fun _ kinds => kinds = [.symbol mark] :=
  fun _ _ _ accepted => ⟨_, accepted_expect accepted, rfl⟩

/-! ## Lists -/

section List

variable {α : Type} {close : Symbol} {single : Parser α} {means : α → List Kind → Prop}

def ListedSoFar (close : Symbol) (means : α → List Kind → Prop) (items : List α)
    (kinds : List Kind) (rest : List Token) : Prop :=
  ∃ entries : List (α × List Kind), items = entries.map Prod.fst ∧
    (∀ entry ∈ entries, means entry.1 entry.2) ∧
      ((entries ≠ [] ∧ kinds = joined (entries.map Prod.snd)) ∨
        (frontKind rest = .symbol close ∧ Listing (entries.map Prod.snd) kinds))

theorem accepted_item {items result : List α} {cursor after : Cursor} (sound : Sound single means)
    (accepted : (item close single items).run cursor = .accepted result after) :
    (frontKind cursor.rest = .symbol close ∧ result = items ∧ after = cursor) ∨
      ∃ value kinds, result = items ++ [value] ∧ Between cursor.rest kinds after.rest ∧
        means value kinds := by
  unfold item at accepted
  rw [run_isAt_bind] at accepted
  by_cases closed : frontKind cursor.rest = .symbol close
  · simp only [closed, beq_self_eq_true, if_true, run_pure] at accepted
    cases accepted
    exact Or.inl ⟨closed, rfl, rfl⟩
  · simp only [beq_iff_eq, closed, if_false] at accepted
    obtain ⟨value, middle, first, accepted⟩ := accepted_bind accepted
    rw [run_pure] at accepted
    cases accepted
    obtain ⟨kinds, between, meant⟩ := sound _ _ _ first
    exact Or.inr ⟨value, kinds, rfl, between, meant⟩

theorem listedSoFar_start {first : List α} {cursor after : Cursor} (sound : Sound single means)
    (accepted : (item close single []).run cursor = .accepted first after) :
    ∃ kinds, Between cursor.rest kinds after.rest ∧
      ListedSoFar close means first kinds after.rest := by
  rcases accepted_item sound accepted with ⟨isClose, rfl, rfl⟩ | ⟨value, kinds, rfl, between, meant⟩
  · exact ⟨[], Between.refl _, [], rfl, by simp, Or.inr ⟨isClose, .plain⟩⟩
  · refine ⟨kinds, between, [(value, kinds)], rfl, by simpa using meant, Or.inl ⟨by simp, ?_⟩⟩
    simp [joined]

theorem listedSoFar_comma {items extended : List α} {kinds : List Kind} {token : Token}
    {rest : List Token} {nextId : Nat} {after : Cursor} (sound : Sound single means)
    (noComma : close ≠ .comma) (soFar : ListedSoFar close means items kinds (token :: rest))
    (comma : token.kind = .symbol .comma)
    (accepted : (item close single items).run ⟨rest, nextId⟩ = .accepted extended after) :
    ∃ further, Between rest further after.rest ∧
      ListedSoFar close means extended (kinds ++ token.kind :: further) after.rest := by
  obtain ⟨entries, rfl, each, state⟩ := soFar
  have unclosed : entries ≠ [] ∧ kinds = joined (entries.map Prod.snd) := by
    rcases state with before | ⟨isClose, _⟩
    · exact before
    · simp [comma, noComma.symm] at isClose
  obtain ⟨nonempty, rfl⟩ := unclosed
  have runsNonempty : entries.map Prod.snd ≠ [] := by simpa using nonempty
  rw [comma]
  rcases accepted_item sound accepted with ⟨isClose, rfl, rfl⟩ | ⟨value, kinds, rfl, between, meant⟩
  · exact ⟨[], Between.refl _, entries, rfl, each, Or.inr ⟨isClose, .trailing runsNonempty⟩⟩
  · refine ⟨kinds, between, entries ++ [(value, kinds)], by simp, ?_, Or.inl ⟨by simp, ?_⟩⟩
    · exact List.forall_mem_append.mpr ⟨each, by simpa using meant⟩
    · rw [List.map_append, List.map_singleton, joined_append_singleton runsNonempty]

theorem listedSoFar_round (sound : Sound single means) (noComma : close ≠ .comma) {items : List α}
    {kinds : List Kind} {token : Token} {rest : List Token} {found : Unit} {nextId : Nat}
    {extended : List α} {after : Cursor}
    (soFar : ListedSoFar close means items kinds (token :: rest))
    (goesOn : (if token.kind = .symbol .comma then some () else none) = some found)
    (accepted : (item close single items).run ⟨rest, nextId⟩ = .accepted extended after) :
    ∃ further, Between rest further after.rest ∧
      ListedSoFar close means extended (kinds ++ token.kind :: further) after.rest := by
  by_cases comma : token.kind = .symbol .comma
  · exact listedSoFar_comma sound noComma soFar comma accepted
  · simp [comma] at goesOn

end List

/-! ## Forms of the grammar -/

abbrev SoundFor {α : Type} (left : Nat) (parser : Parser α) (form : α → Phrase) : Prop :=
  Sound parser fun value kinds => Derives true left (form value) kinds

section Forms

variable {left : Nat} {expression : Parser Expr}

/-- What is built is derived, also where one more level is left. -/
theorem Builder.sound {α : Type} {parser : Parser α} {form : α → Phrase}
    (builder : Builder left parser form) : SoundFor (left + 1) parser form :=
  Building.sound builder fun _ _ _ _ built => built.derives.mono (Nat.le_succ left)

theorem ClosedBuilder.sound {α : Type} {parser : Parser (α × Span)} {form : α → Phrase}
    (builder : ClosedBuilder left parser form) :
    SoundFor (left + 1) parser fun result => form result.1 := by
  refine Building.sound builder ?_
  rintro result _ first next ⟨inside, last, rfl, _, built⟩
  exact built.derives.mono (Nat.le_succ left)

theorem initializer_sound (inner : Builder left expression .expression) (given : Name) :
    Sound (initializer expression given) fun value kinds =>
      (∃ info, value = .identifier given.text info ∧ kinds = []) ∨
        ∃ further, kinds = .symbol .colon :: further ∧
          Derives true (left + 1) (.expression value) further := by
  refine (initializer_building inner given).sound ?_
  rintro value _ first next (⟨rfl, rfl, _⟩ | ⟨colon, tokens, rfl, isColon, built⟩)
  · exact Or.inl ⟨_, rfl, rfl⟩
  · refine Or.inr ⟨tokens.map Token.kind, ?_, built.derives.mono (Nat.le_succ left)⟩
    rw [List.map_cons, isColon]

/-! ### Rounds of loops -/

theorem member_sound (inner : Builder left expression .expression) {receiver : Expr}
    {kinds : List Kind} (derived : Derives true (left + 1) (.suffixed receiver) kinds) :
    Sound (member expression receiver) fun value further =>
      Derives true (left + 1) (.suffixed value) (kinds ++ .symbol .dot :: further) := by
  intro cursor value after accepted
  unfold member at accepted
  obtain ⟨given, middle, isName, accepted⟩ := accepted_bind accepted
  obtain ⟨_, begins, rfl⟩ := name_sound _ _ _ isName
  rw [run_isAt_bind] at accepted
  split at accepted
  · obtain ⟨result, last, argued, accepted⟩ := accepted_bind accepted
    simp only [run_fresh_bind, run_pure] at accepted
    cases accepted
    obtain ⟨_, between, derivedArguments⟩ := (arguments_building inner).sound _ _ _ argued
    exact ⟨_, begins.trans between, .methodCall given _ derived derivedArguments⟩
  · simp only [run_fresh_bind, run_pure] at accepted
    cases accepted
    exact ⟨_, begins, .fieldAccess given _ derived⟩

theorem suffix_sound (inner : Builder left expression .expression) {operand : Expr}
    {kinds : List Kind} {token : Token} {found : Suffix}
    (derived : Derives true (left + 1) (.suffixed operand) kinds)
    (continued : suffix? token.kind = some found) :
    Sound (suffix expression operand found token) fun value further =>
      Derives true (left + 1) (.suffixed value) (kinds ++ token.kind :: further) := by
  unfold suffix? at continued
  split at continued
  · rename_i isBang
    cases continued
    intro cursor value after accepted
    simp only [suffix, run_fresh_bind, run_pure] at accepted
    cases accepted
    rw [isBang]
    exact ⟨[], Between.refl _, .notNull _ derived⟩
  · rename_i isDot
    cases continued
    rw [isDot]
    exact member_sound inner derived
  · cases continued

theorem chainStep_sound {strength : Nat} {operand : Parser Expr} {tree : Expr} {kinds : List Kind}
    {op : BinaryOp} {token : Token} (inner : Builder left operand (.chain (strength + 1)))
    (derived : Derives true (left + 1) (.chain strength tree) kinds)
    (isOperator : operatorOf? strength token.kind = some op) :
    Sound (chainStep operand tree op token) fun value further =>
      Derives true (left + 1) (.chain strength value) (kinds ++ token.kind :: further) := by
  intro cursor value after accepted
  unfold chainStep at accepted
  obtain ⟨right, last, latter, accepted⟩ := accepted_bind accepted
  simp only [run_fresh_bind, run_pure] at accepted
  cases accepted
  obtain ⟨further, between, derivedRight⟩ := inner.sound _ _ _ latter
  obtain ⟨isSymbol, rfl⟩ := operatorOf?_eq_some isOperator
  rw [isSymbol]
  exact ⟨further, between, .binary op _ derived derivedRight⟩

end Forms

end ContractExpr.Parser
