import ContractExpr.Proofs.Token.Rereading
import ContractExpr.Proofs.Token.Tiling

/-! # Texts joined between tokens

The tokens in front of a place in a text are read again in front of another text, when that text
may stand wherever the first one may: nothing leaks over the border.
-/

set_option autoImplicit false

namespace ContractExpr

open Text Token

/-! ## One text in the place of another -/

/-- The second text may stand behind every token that the first one may stand behind. -/
def Rejoins (rest rest' : List Char) : Prop :=
  ∀ inside kind, Allows inside rest kind → Allows inside rest' kind

section Rejoins

variable {rest rest' : List Char}

theorem rejoins_of_head (same : rest'.head? = rest.head?) : Rejoins rest rest' := by
  intro inside kind
  cases kind <;> simp only [Allows, EndsWord, EndsLine, same] <;> exact id

theorem rejoins_append {front : List Char} (nonempty : front ≠ []) (rest rest' : List Char) :
    Rejoins (front ++ rest) (front ++ rest') := by
  apply rejoins_of_head
  rw [List.head?_append_of_ne_nil _ nonempty, List.head?_append_of_ne_nil _ nonempty]

/-- A line break may stand where the text was at its end. -/
theorem rejoins_lineBreak (rest : List Char) : Rejoins [] ('\n' :: rest) := by
  intro inside kind _
  cases noComment : kind.isComment with
  | false => exact allows_of_parted noComment (parted_cons (by decide) rest)
  | true =>
      cases kind with
      | comment => exact fun _ => by simp [EndsLine]
      | _ => cases noComment

theorem rejoins_paren {first : Char} (start : isNameStart first = true) (rest rest' : List Char) :
    Rejoins (first :: rest) ('(' :: rest') := by
  have noWord : ¬EndsWord (first :: rest) := by
    rw [endsWord_cons, isNamePart_of_isNameStart start]
    exact Bool.noConfusion
  intro inside kind allows
  cases kind with
  | string => trivial
  | symbol mark =>
      intro c head
      cases head
      cases mark <;> decide
  | comment =>
      intro slashes
      cases allows slashes first rfl
      cases start
  | _ => exact absurd allows noWord

end Rejoins

/-! ## The tokens up to a place -/

theorem Tiled.kinds {before text : List Char} {tokens : List Token}
    (tiled : Tiled before text tokens) : kindsOf text = tokens.map Token.kind := by
  induction tiled with
  | @last before gap token blank isEnd span =>
      rw [← List.append_nil gap, kindsOf_blanks blank, kindsOf_nil, List.map_singleton, isEnd]
  | @more before text token tokens gap inside rest whole blank begins read noEnd span behind ih =>
      obtain ⟨first, others, rfl, noBlank⟩ := begins
      have front : kindsOf (first :: others ++ rest) =
          token.kind :: kindsOf ((first :: others ++ rest).drop (first :: others).length) :=
        kindsOf_lexeme noBlank read noEnd
      rw [whole, List.append_assoc, kindsOf_blanks blank, front, List.drop_left, ih, List.map_cons]

structure Standing (before text : List Char) (earlier : List Token) (token : Token)
    (front inside back : List Char) : Prop where
  whole : text = front ++ inside ++ back
  span : token.span = Span.ofRun (before ++ front) inside
  read : Lexeme.read (inside ++ back) = ⟨token.kind, inside.length⟩
  /-- The tokens in front are the same before every text that may stand in this place. -/
  again : ∀ rest', Rejoins (inside ++ back) rest' →
    kindsOf (front ++ rest') = earlier.map Token.kind ++ kindsOf rest'

/-- Every token of a text stands in it, and the tokens behind it are those of the rest. -/
theorem Tiled.standing {before text : List Char} {tokens earlier later : List Token}
    {token : Token} (tiled : Tiled before text tokens)
    (sound : ∀ token ∈ tokens, token.kind.isMalformed = false)
    (split : tokens = earlier ++ token :: later) :
    ∃ front inside back, Standing before text earlier token front inside back ∧
      (token.kind.isEnd = false → kindsOf back = later.map Token.kind) := by
  induction tiled generalizing earlier with
  | @last before gap final blank isEnd span =>
      obtain ⟨rfl, same⟩ := List.append_eq_singleton_iff.mp split.symm |>.resolve_right (by simp)
      cases same
      refine ⟨gap, [], [], ⟨by simp, span, by rw [isEnd]; rfl, ?_⟩, ?_⟩
      · exact fun rest' _ => kindsOf_blanks blank rest'
      · intro more
        rw [isEnd] at more
        cases more
  | @more before text first others gap inside rest whole blank begins read noEnd span behind ih =>
      obtain ⟨soundFirst, soundOthers⟩ := List.forall_mem_cons.mp sound
      cases earlier with
      | nil =>
          cases split
          refine ⟨gap, inside, rest, ⟨whole, span, read, ?_⟩, fun _ => ?_⟩
          · exact fun rest' _ => kindsOf_blanks blank rest'
          · exact behind.kinds
      | cons near earlier =>
          cases split
          obtain ⟨front, inside', back, stands, behindKinds⟩ := ih soundOthers rfl
          refine ⟨gap ++ inside ++ front, inside', back, ⟨?_, ?_, stands.read, ?_⟩, behindKinds⟩
          · simp [whole, stands.whole]
          · simpa using stands.span
          · intro rest' rejoins
            have joined : Rejoins rest (front ++ rest') := by
              rw [stands.whole, List.append_assoc]
              cases front with
              | nil => exact rejoins
              | cons c front => exact rejoins_append (List.cons_ne_nil c front) _ _
            have solid : inside ≠ [] := by
              obtain ⟨c, others, rfl, _⟩ := begins
              exact List.cons_ne_nil c others
            have allowed := (Lexeme.read_closed solid read soundFirst).allows
            rw [List.append_assoc, List.append_assoc, kindsOf_blanks blank,
              kindsOf_reread begins read soundFirst noEnd (joined _ _ allowed),
              stands.again rest' rejoins]
            rfl

/-- A line break behind a text ends its tokens as the end of the text did. -/
theorem kindsOf_lineBreak {source : String} {kinds : List Kind}
    (shape : (tokenize source).map Token.kind = kinds ++ [.endOfInput])
    (sound : ∀ kind ∈ kinds, kind.isMalformed = false) (rest : List Char) :
    kindsOf (source.toList ++ '\n' :: rest) = kinds ++ kindsOf rest := by
  obtain ⟨earlier, others, split, rfl, last⟩ := List.map_eq_append_iff.mp shape
  obtain ⟨token, none, rfl, isEnd, nil⟩ := List.map_eq_cons_iff.mp last
  have tiled : Tiled [] source.toList (tokenize source) := (Reader.ofString source).tiled [] rfl
  have soundAll : ∀ token ∈ tokenize source, token.kind.isMalformed = false := by
    intro other member
    rw [split] at member
    rcases List.mem_append.mp member with before | final
    · exact sound _ (List.mem_map_of_mem before)
    · rw [List.map_eq_nil_iff.mp nil, List.mem_singleton] at final
      rw [final, isEnd]
      rfl
  obtain ⟨front, inside, back, stands, _⟩ := tiled.standing soundAll split
  have empty : inside ++ back = [] := by
    cases text : inside ++ back with
    | nil => rfl
    | cons first others =>
        have noEnd := Lexeme.isEnd_read_cons first others
        rw [← text, stands.read, isEnd] at noEnd
        cases noEnd
  have whole : source.toList = front := by
    rw [stands.whole, List.append_assoc, empty, List.append_nil]
  rw [whole, stands.again _ (empty ▸ rejoins_lineBreak rest), kindsOf_blank (by decide)]

end ContractExpr
