import ContractExpr.Proofs.Expr.Replacement
import ContractExpr.Proofs.Grammar.Building

/-! # Groups in the place of a name

Where a phrase was built with a name that stands alone, the token of the name can make way for any
expression in parentheses. What is derived then is the phrase with the expression in the place of
the name, however tightly the operators around it bind.
-/

set_option autoImplicit false

namespace ContractExpr

open Token

/-- Whether the value of a field was read behind the name of the field. A name that stands for its
own value has the place of the value too. -/
def Field.IsGiven (entry : Field Expr) : Prop := entry.initializer.span ≠ entry.name.info.span

namespace Grammar

/-- The second phrase is the first one with one occurrence of a node replaced by another
expression. -/
inductive Phrase.Replaced (node other : Expr) : Phrase → Phrase → Prop where
  | expression {tree tree' : Expr}
      (inner : Expr.Replaced Field.IsGiven node other tree tree') :
      Replaced node other (.expression tree) (.expression tree')
  | chain {tree tree' : Expr} (least : Nat)
      (inner : Expr.Replaced Field.IsGiven node other tree tree') :
      Replaced node other (.chain least tree) (.chain least tree')
  | signed {tree tree' : Expr} (inner : Expr.Replaced Field.IsGiven node other tree tree') :
      Replaced node other (.signed tree) (.signed tree')
  | suffixed {tree tree' : Expr} (inner : Expr.Replaced Field.IsGiven node other tree tree') :
      Replaced node other (.suffixed tree) (.suffixed tree')
  | primary {tree tree' : Expr} (inner : Expr.Replaced Field.IsGiven node other tree tree') :
      Replaced node other (.primary tree) (.primary tree')
  | arguments {tree tree' : Expr} (before behind : List Expr)
      (inner : Expr.Replaced Field.IsGiven node other tree tree') :
      Replaced node other (.arguments (before ++ tree :: behind))
        (.arguments (before ++ tree' :: behind))
  | field {entry : Field Expr} {tree' : Expr} (given : entry.IsGiven)
      (inner : Expr.Replaced Field.IsGiven node other entry.initializer tree') :
      Replaced node other (.field entry) (.field { entry with initializer := tree' })
  | fields {entry : Field Expr} {tree' : Expr} (before behind : List (Field Expr))
      (given : entry.IsGiven)
      (inner : Expr.Replaced Field.IsGiven node other entry.initializer tree') :
      Replaced node other (.fields (before ++ entry :: behind))
        (.fields (before ++ { entry with initializer := tree' } :: behind))

/-- One of the tokens is the given name, and a group of any tokens that derive the other expression
may stand in its place. -/
def Grafts (text : String) (span : Span) (other : Expr) (left : Nat) (phrase : Phrase)
    (tokens : List Token) : Prop :=
  ∃ before token behind, tokens = before ++ token :: behind ∧ token.kind = .name text ∧
    token.span = span ∧
      ∀ more kinds, Derives true more (.expression other) kinds →
        Derives true (more + left) phrase
          (before.map Token.kind ++ .symbol .leftParen ::
            (kinds ++ .symbol .rightParen :: behind.map Token.kind))

/-! ## Lists -/

section Parts

variable {α : Type} {parts parts' : List (Part α)} {part : Part α} {tokens : List Token}
  {first next : Nat}

def runsOf (parts : List (Part α)) : List (List Kind) := (parts.map Part.entry).map Prod.snd

theorem Row.around (row : Row (parts ++ part :: parts') tokens first next) :
    ∃ front back, tokens = front ++ part.tokens ++ back ∧ ∀ run,
      joined (runsOf parts ++ run :: runsOf parts') =
        front.map Token.kind ++ run ++ back.map Token.kind := by
  generalize whole : parts ++ part :: parts' = all at row
  induction row generalizing parts' with
  | single only =>
      obtain ⟨rfl, rest⟩ := List.append_eq_singleton_iff.mp whole |>.resolve_right (by simp)
      cases rest
      exact ⟨[], [], by simp, fun run => by simp [runsOf, joined]⟩
  | @snoc earlier tokens first comma last before isComma ih =>
      rcases List.eq_nil_or_concat parts' with rfl | ⟨others, final, rfl⟩
      · -- the part is the last one
        obtain ⟨rfl, same⟩ := List.append_inj' whole rfl
        cases same
        refine ⟨tokens ++ [comma], [], by simp, fun run => ?_⟩
        have nonempty : runsOf parts ≠ [] := by simpa [runsOf] using before.nonempty
        have front : tokens.map Token.kind = joined (runsOf parts) := before.kinds
        rw [show runsOf ([] : List (Part α)) = [] from rfl, joined_append_singleton nonempty,
          ← front]
        simp [isComma]
      · have split : (parts ++ part :: others) ++ [final] = earlier ++ [last] := by
          simpa using whole
        obtain ⟨rfl, same⟩ := List.append_inj' split rfl
        cases same
        obtain ⟨front, back, rfl, around⟩ := ih rfl
        refine ⟨front, back ++ comma :: last.tokens, by simp, fun run => ?_⟩
        have listed : runsOf parts ++ run :: runsOf (others.concat last) =
            (runsOf parts ++ run :: runsOf others) ++ [last.tokens.map Token.kind] := by
          simp [runsOf, Part.entry]
        rw [listed, joined_append_singleton (by simp), around]
        simp [isComma]

/-- The tokens of a part in a comma list can make way for any others. -/
theorem PartList.around (listed : PartList (parts ++ part :: parts') tokens first next) :
    ∃ front back, tokens = front ++ part.tokens ++ back ∧ ∀ run,
      Listing (runsOf parts ++ run :: runsOf parts')
        (front.map Token.kind ++ run ++ back.map Token.kind) := by
  generalize whole : parts ++ part :: parts' = all at listed
  cases listed with
  | nil => simp at whole
  | plain row =>
      subst whole
      obtain ⟨front, back, tokens, around⟩ := row.around
      exact ⟨front, back, tokens, fun run => around run ▸ .plain⟩
  | @trailing _ tokens _ _ comma row isComma =>
      subst whole
      obtain ⟨front, back, rfl, around⟩ := row.around
      refine ⟨front, back ++ [comma], by simp, fun run => ?_⟩
      have listing := @Listing.trailing (runsOf parts ++ run :: runsOf parts') (by simp)
      rw [around] at listing
      simpa [isComma] using listing

end Parts

/-! ## Phrases -/

section Grafts

variable {text : String} {span : Span} {other : Expr} {left left' : Nat} {phrase phrase' : Phrase}
  {tokens tokens' : List Token}

/-- What is built around the tokens does not care which tokens they are. -/
theorem Grafts.wrap (inner : Grafts text span other left phrase tokens) (front back : List Token)
    (whole : tokens' = front ++ tokens ++ back)
    (build : ∀ more kinds, Derives true (more + left) phrase kinds →
      Derives true (more + left') phrase'
        (front.map Token.kind ++ kinds ++ back.map Token.kind)) :
    Grafts text span other left' phrase' tokens' := by
  obtain ⟨before, token, behind, rfl, isName, place, graft⟩ := inner
  refine ⟨front ++ before, token, behind ++ back, by simp [whole], isName, place, ?_⟩
  intro more kinds derived
  simpa using build more _ (graft more kinds derived)

theorem Builds.derives_more {first next : Nat} (built : Builds left phrase tokens first next)
    (more : Nat) : Derives true (more + left) phrase (tokens.map Token.kind) :=
  built.derives.mono (Nat.le_add_left left more)

theorem derives_parts {α : Type} {single : α → Phrase} {parts parts' : List (Part α)}
    {part : Part α} {value : α} {run : List Kind} {more : Nat}
    (each : ∀ part' ∈ parts ++ part :: parts',
      Builds left (single part'.value) part'.tokens part'.first part'.next)
    (derived : Derives true (more + left) (single value) run) :
    ∀ entry ∈ parts.map Part.entry ++ (value, run) :: parts'.map Part.entry,
      Derives true (more + left) (single entry.1) entry.2 := by
  have others {part' : Part α} (member : part' ∈ parts ∨ part' ∈ parts') :
      Derives true (more + left) (single part'.entry.1) part'.entry.2 :=
    (each part' (by simp only [List.mem_append, List.mem_cons]; tauto)).derives_more more
  intro entry member
  simp only [List.mem_append, List.mem_cons, List.mem_map] at member
  rcases member with ⟨part', inFront, rfl⟩ | rfl | ⟨part', inBack, rfl⟩
  · exact others (Or.inl inFront)
  · exact derived
  · exact others (Or.inr inBack)

/-- In a phrase with an occurrence of a name replaced, a group stands in the place of the name. -/
theorem Builds.grafts {info : Info} {first next : Nat}
    (built : Builds left phrase tokens first next)
    (replaced : Phrase.Replaced (.identifier text info) other phrase phrase') :
    Grafts text info.span other left phrase' tokens := by
  induction built generalizing phrase' with
  | unconditional _ ih =>
      cases replaced with
      | expression inner =>
          exact (ih (.chain _ inner)).wrap [] [] (by simp)
            fun more kinds derived => by simpa using .unconditional derived
  | @conditional _ _ _ _ _ _ _ _ before between behind question colon former isQuestion middle
      isColon latter ihFormer ihMiddle ihLatter =>
      cases replaced with
      | expression inner =>
          cases inner with
          | condition _ _ _ inner =>
              refine (ihFormer (.chain _ inner)).wrap [] (question :: (between ++ colon :: behind))
                rfl fun more kinds derived => ?_
              simpa [isQuestion, isColon] using
                .conditional _ derived (middle.derives_more more) (latter.derives_more more)
          | consequent _ _ _ inner =>
              refine (ihMiddle (.chain _ inner)).wrap (before ++ [question]) (colon :: behind)
                (by simp) fun more kinds derived => ?_
              simpa [isQuestion, isColon] using
                .conditional _ (former.derives_more more) derived (latter.derives_more more)
          | alternative _ _ _ inner =>
              refine (ihLatter (.expression inner)).wrap
                (before ++ question :: (between ++ [colon])) [] (by simp)
                fun more kinds derived => ?_
              simpa [isQuestion, isColon] using
                .conditional _ (former.derives_more more) (middle.derives_more more) derived
  | tighter below _ ih =>
      cases replaced with
      | chain _ inner =>
          exact (ih (.chain _ inner)).wrap [] [] (by simp)
            fun more kinds derived => by simpa using .tighter below derived
  | @binary _ _ _ _ _ _ before behind mark op inFront isMark inBack ihFront ihBack =>
      cases replaced with
      | chain _ inner =>
          cases inner with
          | left _ _ _ inner =>
              refine (ihFront (.chain _ inner)).wrap [] (mark :: behind) rfl
                fun more kinds derived => ?_
              simpa [isMark] using .binary op _ derived (inBack.derives_more more)
          | right _ _ _ inner =>
              refine (ihBack (.chain _ inner)).wrap (before ++ [mark]) [] (by simp)
                fun more kinds derived => ?_
              simpa [isMark] using .binary op _ (inFront.derives_more more) derived
  | operand _ ih =>
      cases replaced with
      | chain _ inner =>
          exact (ih (.signed inner)).wrap [] [] (by simp)
            fun more kinds derived => by simpa using .operand derived
  | @sign _ _ _ _ _ mark op leads isMark _ ih =>
      cases replaced with
      | signed inner =>
          cases inner with
          | operand _ _ inner =>
              refine (ih (.signed inner)).wrap [mark] [] (by simp) fun more kinds derived => ?_
              simpa [isMark] using .sign op _ leads derived
  | @doubleNot _ _ _ _ _ mark isMark _ ih =>
      cases replaced with
      | signed inner =>
          cases inner with
          | operand _ _ inner =>
              cases inner with
              | operand _ _ inner =>
                  refine (ih (.signed inner)).wrap [mark] [] (by simp)
                    fun more kinds derived => ?_
                  simpa [isMark] using .doubleNot _ _ derived
  | unsigned _ ih =>
      cases replaced with
      | signed inner =>
          exact (ih (.suffixed inner)).wrap [] [] (by simp)
            fun more kinds derived => by simpa using .unsigned derived
  | unsuffixed _ ih =>
      cases replaced with
      | suffixed inner =>
          exact (ih (.primary inner)).wrap [] [] (by simp)
            fun more kinds derived => by simpa using .unsuffixed derived
  | @notNull _ _ _ _ _ mark _ isMark ih =>
      cases replaced with
      | suffixed inner =>
          cases inner with
          | operand _ _ inner =>
              refine (ih (.suffixed inner)).wrap [] [mark] rfl fun more kinds derived => ?_
              simpa [isMark] using .notNull _ derived
  | @fieldAccess _ _ _ _ _ dot word _ _ isDot names ih =>
      cases replaced with
      | suffixed inner =>
          cases inner with
          | aggregate _ _ inner =>
              refine (ih (.suffixed inner)).wrap [] [dot, word] rfl fun more kinds derived => ?_
              simpa [isDot, names.kind] using .fieldAccess _ _ derived
  | @methodCall _ _ _ _ _ _ tokens behind dot word close _ inner isDot names given ih ihGiven =>
      cases replaced with
      | suffixed replaced =>
          cases replaced with
          | receiver _ _ _ replaced =>
              refine (ih (.suffixed replaced)).wrap [] (dot :: word :: (behind ++ [close])) rfl
                fun more kinds derived => ?_
              simpa [isDot, names.kind] using
                .methodCall _ _ derived (by simpa using given.derives_more more)
          | methodCall _ _ before behind _ replaced =>
              refine (ihGiven (.arguments before behind replaced)).wrap (tokens ++ [dot, word]) []
                (by simp) fun more kinds derived => ?_
              simpa [isDot, names.kind] using .methodCall _ _ (inner.derives_more more) derived
  | number | boolean | null | string =>
      cases replaced with
      | primary inner => cases inner
  | identifier names =>
      cases replaced with
      | primary inner =>
          cases inner with
          | here =>
              refine ⟨[], _, [], rfl, names.kind, by rw [names.info], fun more kinds derived => ?_⟩
              exact .group (derived.mono (Nat.le_add_right more _))
  | @call _ _ _ _ _ word _ _ names _ ih =>
      cases replaced with
      | primary inner =>
          cases inner with
          | call _ before behind _ inner =>
              refine (ih (.arguments before behind inner)).wrap [word] [] (by simp)
                fun more kinds derived => ?_
              simpa [names.kind] using .call _ _ derived
  | @structInstance _ _ _ _ _ word _ _ names _ ih =>
      cases replaced with
      | primary inner =>
          cases inner with
          | initializer _ before behind _ given inner =>
              refine (ih (.fields before behind given inner)).wrap [word] [] (by simp)
                fun more kinds derived => ?_
              simpa [names.kind] using .structInstance _ _ derived
  | @initOf _ _ _ _ _ start word _ _ isInitOf names _ ih =>
      cases replaced with
      | primary inner =>
          cases inner with
          | initOf _ before behind _ inner =>
              refine (ih (.arguments before behind inner)).wrap [start, word] [] (by simp)
                fun more kinds derived => ?_
              simpa [isInitOf, names.kind] using .initOf _ _ derived
  | @group _ _ _ _ _ opening close isOpening _ isClose ih =>
      cases replaced with
      | primary inner =>
          refine (ih (.expression inner)).wrap [opening] [close] rfl fun more kinds derived => ?_
          simpa [isOpening, isClose] using .group derived
  | @arguments _ _ _ _ opening close parts isOpening each listed isClose ih =>
      generalize trees : parts.map Part.value = all at replaced
      cases replaced with
      | @arguments _ tree' before behind inner =>
          obtain ⟨earlier, others, rfl, rfl, split⟩ := List.map_eq_append_iff.mp trees
          obtain ⟨part, later, rfl, rfl, rfl⟩ := List.map_eq_cons_iff.mp split
          obtain ⟨front, back, rfl, around⟩ := listed.around
          refine (ih part (by simp) (.expression inner)).wrap (opening :: front) (back ++ [close])
            (by simp) fun more kinds derived => ?_
          have derived' := Derives.arguments _ (derives_parts each derived)
            (by simpa [runsOf] using around kinds)
          simpa [isOpening, isClose, Function.comp_def, Part.entry] using derived'
  | briefField names =>
      cases replaced with
      | field given inner => exact absurd (congrArg Info.span names.info).symm given
  | @field _ _ _ _ _ _ word colon names isColon _ ih =>
      cases replaced with
      | field given inner =>
          refine (ih (.expression inner)).wrap [word, colon] [] (by simp)
            fun more kinds derived => ?_
          simpa [names.kind, isColon] using .field _ _ derived
  | @fields _ _ _ _ opening close parts isOpening each listed isClose ih =>
      generalize entries : parts.map Part.value = all at replaced
      cases replaced with
      | @fields entry tree' before behind given inner =>
          obtain ⟨earlier, others, rfl, rfl, split⟩ := List.map_eq_append_iff.mp entries
          obtain ⟨part, later, rfl, rfl, rfl⟩ := List.map_eq_cons_iff.mp split
          obtain ⟨front, back, rfl, around⟩ := listed.around
          refine (ih part (by simp) (.field given inner)).wrap (opening :: front) (back ++ [close])
            (by simp) fun more kinds derived => ?_
          have derived' := Derives.fields _ (derives_parts each derived)
            (by simpa [runsOf] using around kinds)
          simpa [isOpening, isClose, Function.comp_def, Part.entry] using derived'

end Grafts
end Grammar
end ContractExpr
