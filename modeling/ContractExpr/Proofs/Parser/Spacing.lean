import ContractExpr.Proofs.Parser.Exactness
import ContractExpr.Proofs.Parser.Foresight
import ContractExpr.Proofs.Token.Rereading
import ContractExpr.Proofs.Token.Tiling

/-! # Spacing has no meaning

A source is read the same when its tokens are written again with other blanks and comments between
them, as long as a blank comes first behind each token. Only places differ.
-/

set_option autoImplicit false

namespace ContractExpr

open Text Token

/-! ## Spacing -/

/-- A text of blanks and comments: block comments up to their end mark, and line comments up to
their line break. -/
inductive Filler : List Char → Prop where
  | nil : Filler []
  | blank {c : Char} {rest : List Char} (blank : isBlank c = true) (behind : Filler rest) :
      Filler (c :: rest)
  | block {content rest : List Char} (noMark : ¬['*', '/'] <:+: content) (behind : Filler rest) :
      Filler ('/' :: '*' :: (content ++ '*' :: '/' :: rest))
  | line {content rest : List Char} (oneLine : '\n' ∉ content) (behind : Filler rest) :
      Filler ('/' :: '/' :: (content ++ '\n' :: rest))

inductive Separator : List Char → Prop where
  | blank {c : Char} {rest : List Char} (blank : isBlank c = true) (behind : Filler rest) :
      Separator (c :: rest)

/-- The texts in order, a separator behind each. Behind the last one nothing need stand. -/
inductive Spread : List String → List Char → Prop where
  | nil : Spread [] []
  | last (text : String) : Spread [text] text.toList
  | more {text : String} {texts : List String} {gap chars : List Char} (separates : Separator gap)
      (behind : Spread texts chars) : Spread (text :: texts) (text.toList ++ gap ++ chars)

def Token.isWritten (token : Token) : Bool := !token.kind.isComment && !token.kind.isEnd

def writtenTexts (source : String) (tokens : List Token) : List String :=
  (tokens.filter Token.isWritten).map fun token => token.span.text source

/-- The other source has the tokens of the first with a spacing of its own. -/
def Respaced (source other : String) : Prop :=
  ∃ front behind, other.toList = front ++ behind ∧ Filler front ∧
    Spread (writtenTexts source (tokenize source)) behind

/-! ## Reading over a spacing -/

def withoutComments (kinds : List Kind) : List Kind := kinds.filter fun kind => !kind.isComment

theorem Lexeme.blockContent?_of_noMark {content : List Char} (noMark : ¬['*', '/'] <:+: content)
    (rest : List Char) : blockContent? (content ++ '*' :: '/' :: rest) = some content := by
  induction content with
  | nil => rfl
  | cons c content ih =>
      have inner := ih fun inside => noMark (inside.trans (List.suffix_cons c content).isInfix)
      rw [List.cons_append, blockContent?.eq_def]
      split
      · contradiction
      · rename_i same
        -- a mark that begins with this character would end inside the content or overlap its own
        cases content with
        | nil => cases same
        | cons second content =>
            cases same
            exact absurd ⟨[], content, rfl⟩ noMark
      · rename_i same
        cases same
        rw [inner]
        rfl

theorem Lexeme.lineComment_of_oneLine {content : List Char} (oneLine : '\n' ∉ content)
    (rest : List Char) : ∃ text, lineComment (content ++ '\n' :: rest) =
      ⟨.comment text, 2 + content.length⟩ := by
  have taken {part : List Char} (inside : '\n' ∉ part) :
      (part ++ '\n' :: rest).takeWhile (· != '\n') = part := by
    rw [List.takeWhile_append_of_pos (fun c member => by
      rw [bne_iff_ne]
      rintro rfl
      exact inside member), List.takeWhile_cons_of_neg (by simp), List.append_nil]
  cases content with
  | nil => exact ⟨_, rfl⟩
  | cons c content =>
      rw [List.mem_cons, not_or] at oneLine
      by_cases space : c = ' '
      · refine ⟨String.ofList content, ?_⟩
        simp [lineComment, space, taken oneLine.2]
        omega
      · refine ⟨String.ofList (c :: content), ?_⟩
        simp [lineComment, space, Ne.symm oneLine.1, taken oneLine.2]

/-- A filler in front of a text adds comments at most. -/
theorem kindsOf_filler {gap : List Char} (filler : Filler gap) (rest : List Char) :
    withoutComments (kindsOf (gap ++ rest)) = withoutComments (kindsOf rest) := by
  induction filler with
  | nil => rfl
  | blank blank _ ih => rw [List.cons_append, kindsOf_blank blank, ih]
  | @block content behind noMark _ ih =>
      have text : '/' :: '*' :: (content ++ '*' :: '/' :: behind) ++ rest =
          '/' :: '*' :: (content ++ '*' :: '/' :: (behind ++ rest)) := by simp
      have read : Lexeme.read ('/' :: '*' :: (content ++ '*' :: '/' :: (behind ++ rest))) =
          ⟨.comment (String.ofList content), 2 + content.length + 2⟩ := by
        rw [Lexeme.read, Lexeme.blockComment, Lexeme.blockContent?_of_noMark noMark]
      have left : ('/' :: '*' :: (content ++ '*' :: '/' :: (behind ++ rest))).drop
          (2 + content.length + 2) = behind ++ rest := by
        rw [Nat.add_comm 2, ← List.drop_drop, ← List.drop_drop]
        simp
      rw [text, kindsOf_lexeme rfl read rfl, left, ← ih]
      rfl
  | @line content behind oneLine _ ih =>
      have text : '/' :: '/' :: (content ++ '\n' :: behind) ++ rest =
          '/' :: '/' :: (content ++ '\n' :: (behind ++ rest)) := by simp
      obtain ⟨shown, comment⟩ := Lexeme.lineComment_of_oneLine oneLine (behind ++ rest)
      have read : Lexeme.read ('/' :: '/' :: (content ++ '\n' :: (behind ++ rest))) =
          ⟨.comment shown, 2 + content.length⟩ := by
        rw [Lexeme.read, comment]
      have left : ('/' :: '/' :: (content ++ '\n' :: (behind ++ rest))).drop
          (2 + content.length) = '\n' :: (behind ++ rest) := by
        rw [← List.drop_drop]
        simp
      rw [text, kindsOf_lexeme rfl read rfl, left, kindsOf_blank rfl, ← ih]
      rfl

/-- The tokens of a source, written with another spacing, are read again. -/
theorem Tiled.kindsOf_spread {source : String} {before text : List Char} {tokens : List Token}
    (tiled : Tiled before text tokens) (whole : source = String.ofList (before ++ text))
    (sound : ∀ token ∈ tokens, token.kind.isMalformed = false) {chars : List Char}
    (spread : Spread (writtenTexts source tokens) chars) :
    withoutComments (kindsOf chars) = withoutComments (tokens.map Token.kind) := by
  induction tiled generalizing chars with
  | @last before gap token blank isEnd span =>
      have none : writtenTexts source [token] = [] := by
        simp [writtenTexts, Token.isWritten, isEnd, Kind.isEnd]
      rw [none] at spread
      cases spread
      rw [kindsOf_nil, List.map_singleton, isEnd]
  | @more before text token tokens gap inside rest parts blank begins read noEnd span behind ih =>
      obtain ⟨soundToken, soundRest⟩ := List.forall_mem_cons.mp sound
      have whole' : source = String.ofList (before ++ gap ++ inside ++ rest) := by
        rw [whole, parts]
        simp
      have covered : token.span.text source = String.ofList inside := by
        rw [span, whole', Span.text_ofRun]
      cases noComment : token.kind.isComment with
      | true =>
          have skipped : writtenTexts source (token :: tokens) = writtenTexts source tokens := by
            simp [writtenTexts, Token.isWritten, noComment]
          rw [skipped] at spread
          rw [ih whole' soundRest spread]
          simp [withoutComments, noComment]
      | false =>
          have written : writtenTexts source (token :: tokens) =
              String.ofList inside :: writtenTexts source tokens := by
            simp [writtenTexts, Token.isWritten, noComment, noEnd, covered]
          have again {rest' : List Char} (parted : Parted rest') :=
            kindsOf_reread begins read soundToken noEnd (allows_of_parted noComment parted)
          have kept {kinds : List Kind} : withoutComments (token.kind :: kinds) =
              token.kind :: withoutComments kinds := by
            simp [withoutComments, noComment]
          rw [written] at spread
          generalize writtenTexts source tokens = texts at spread ih
          rw [List.map_cons, kept]
          cases spread with
          | last =>
              rw [String.toList_ofList, ← List.append_nil inside, again parted_nil, kept,
                ih whole' soundRest .nil]
          | more separates further =>
              cases separates with
              | blank blank filled =>
                  rw [String.toList_ofList, List.append_assoc, List.cons_append,
                    again (parted_cons blank _), kept, kindsOf_blank blank,
                    kindsOf_filler filled, ih whole' soundRest further]

theorem significantKinds_respaced {source other : String}
    (sound : ∀ token ∈ tokenize source, token.kind.isMalformed = false)
    (respaced : Respaced source other) : significantKinds other = significantKinds source := by
  obtain ⟨front, behind, whole, filler, spread⟩ := respaced
  have tiled : Tiled [] source.toList (tokenize source) :=
    (Reader.ofString source).tiled [] rfl
  have kinds := tiled.kindsOf_spread (by rw [List.nil_append, String.ofList_toList]) sound spread
  have read : significantKinds other = withoutComments (kindsOf other.toList) := rfl
  rw [read, whole, kindsOf_filler filler, kinds]
  rfl

/-! ## Reading respaced sources -/

theorem Between.of_map {earlier later other : List Token} {kinds : List Kind}
    (between : Between earlier kinds later)
    (same : other.map Token.kind = earlier.map Token.kind) :
    ∃ rest, Between other kinds rest ∧ frontKind rest = frontKind later := by
  obtain ⟨taken, rfl, rfl⟩ := between
  rw [List.map_append] at same
  obtain ⟨taken', rest, rfl, kinds, behind⟩ := List.map_eq_append_iff.mp same
  refine ⟨rest, ⟨taken', rfl, kinds⟩, ?_⟩
  cases later with
  | nil => rw [List.map_eq_nil_iff.mp behind]
  | cons token later =>
      obtain ⟨token', rest, rfl, kind, _⟩ := List.map_eq_cons_iff.mp behind
      exact kind

namespace Expr

/-- What reading a source gives, but for places: a tree, or why there is none. -/
def outcome (source : String) : Except ParseError.Cause Expr :=
  ((parse source).map unplaced).mapError ParseError.cause

/-- Only the kinds of the tokens of a source decide what it is read as. -/
theorem outcome_congr {source other : String}
    (same : significantKinds other = significantKinds source) : outcome other = outcome source := by
  rw [← map_kind_ofSource, ← map_kind_ofSource] at same
  have reaches := Parser.input.reaches (Cursor.ofSource source)
  obtain ⟨kinds, between⟩ := Between.of_suffix reaches.rest
  obtain ⟨rest, between', front⟩ := between.of_map same
  have echo : Reply.Echo unplaced rest (Parser.input.run (Cursor.ofSource source))
      (Parser.input.run (Cursor.ofSource other)) :=
    Parser.complete_echoes Parser.nestingLimit _ kinds between _ rest between' front
  rw [outcome, outcome, parse, parse]
  generalize Parser.input.run (Cursor.ofSource source) = reply at echo
  generalize Parser.input.run (Cursor.ofSource other) = reply' at echo
  cases echo with
  | accepted _ same => exact congrArg Except.ok same
  | refused _ same => exact congrArg Except.error same

/-- The places of tokens and the spacing between them do not change what a source is read as. -/
theorem outcome_respaced {source other : String}
    (sound : ∀ token ∈ tokenize source, token.kind.isMalformed = false)
    (respaced : Respaced source other) : outcome other = outcome source :=
  outcome_congr (significantKinds_respaced sound respaced)

/-- A sum over three lines, with a comment of each sort. -/
theorem outcome_respaced_sum :
    (∀ token ∈ tokenize "a+!b", token.kind.isMalformed = false) ∧
      Respaced "a+!b" " /* - */a\n+ // c\n ! b" ∧
      outcome " /* - */a\n+ // c\n ! b" = outcome "a+!b" := by
  have sound : ∀ token ∈ tokenize "a+!b", token.kind.isMalformed = false := by decide +kernel
  have texts : writtenTexts "a+!b" (tokenize "a+!b") = ["a", "+", "!", "b"] := by decide +kernel
  have respaced : Respaced "a+!b" " /* - */a\n+ // c\n ! b" := by
    refine ⟨[' ', '/', '*', ' ', '-', ' ', '*', '/'],
      "a".toList ++ ['\n'] ++ ("+".toList ++ [' ', '/', '/', ' ', 'c', '\n', ' '] ++
        ("!".toList ++ [' '] ++ "b".toList)), by decide +kernel, ?_, ?_⟩
    · exact .blank rfl (@Filler.block [' ', '-', ' '] [] (by decide) .nil)
    · have line : Separator [' ', '/', '/', ' ', 'c', '\n', ' '] :=
        .blank rfl (@Filler.line [' ', 'c'] [' '] (by decide) (.blank rfl .nil))
      rw [texts]
      exact .more (.blank rfl .nil) (.more line (.more (.blank rfl .nil) (.last "b")))
  exact ⟨sound, respaced, outcome_respaced sound respaced⟩

end Expr
end ContractExpr
