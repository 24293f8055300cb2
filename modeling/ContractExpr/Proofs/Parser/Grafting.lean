import ContractExpr.Proofs.Grammar.Grafting
import ContractExpr.Proofs.Parser.Exactness
import ContractExpr.Proofs.Parser.NestingLimit
import ContractExpr.Proofs.Token.Cutting

/-! # A source in the place of a name

When a name that stands alone in a source is replaced by another source in parentheses, the result
is read as the first tree with the second one in the place of the name, unless it is nested too
deeply. A line break in front of the closing parenthesis ends a comment that the second source may
end with.
-/

set_option autoImplicit false

namespace ContractExpr

open Token Grammar

namespace Span

def back (span : Span) (source : String) : String :=
  String.Pos.Raw.extract source ⟨span.stop⟩ ⟨source.utf8ByteSize⟩

def replace (span : Span) (source text : String) : String :=
  span.front source ++ text ++ span.back source

theorem back_ofRun (before inside behind : List Char) :
    (ofRun before inside).back (String.ofList (before ++ inside ++ behind)) =
      String.ofList behind := by
  have whole := String.extract_of_valid (before ++ inside) behind []
  rw [List.append_nil] at whole
  rw [back, stop_ofRun, String.utf8ByteSize_ofList, String.utf8Len_append, String.utf8Len_append]
  rw [String.utf8Len_append] at whole
  exact whole

theorem toList_replace_ofRun (before inside behind : List Char) (text : String) :
    ((ofRun before inside).replace (String.ofList (before ++ inside ++ behind)) text).toList =
      before ++ text.toList ++ behind := by
  rw [replace, front_ofRun, back_ofRun]
  simp

end Span

/-! ## The tokens -/

theorem sound_of_significant {source : String}
    (sound : ∀ token ∈ (Cursor.ofSource source).rest, token.kind.isMalformed = false) :
    ∀ token ∈ tokenize source, token.kind.isMalformed = false := by
  intro token member
  cases isComment : token.kind.isComment with
  | true => cases kind : token.kind <;> simp_all [Kind.isComment, Kind.isMalformed]
  | false => exact sound token (List.mem_filter.mpr ⟨member, by simp [isComment]⟩)

/-- A text in parentheses in the place of a name has its own tokens between those of the source. -/
theorem kindsOf_replace {source inserted name : String} {earlier later : List Token}
    {token : Token} {kinds : List Kind} (split : tokenize source = earlier ++ token :: later)
    (isName : token.kind = .name name)
    (sound : ∀ token ∈ tokenize source, token.kind.isMalformed = false)
    (shape : (tokenize inserted).map Token.kind = kinds ++ [.endOfInput])
    (soundInserted : ∀ kind ∈ kinds, kind.isMalformed = false) :
    kindsOf (token.span.replace source ("(" ++ inserted ++ "\n)")).toList =
      earlier.map Token.kind ++ .symbol .leftParen ::
        (kinds ++ .symbol .rightParen :: later.map Token.kind) := by
  have paren (mark : Symbol) (solid : mark.isSolid = true) (rest : List Char) :
      kindsOf (mark.chars ++ rest) = .symbol mark :: kindsOf rest :=
    kindsOf_symbol fun c _ => Symbol.extendedBy_of_isSolid solid c
  have tiled : Tiled [] source.toList (tokenize source) := (Reader.ofString source).tiled [] rfl
  obtain ⟨front, inside, back, stands, behindKinds⟩ := tiled.standing sound split
  have isWord : (Lexeme.read (inside ++ back)).kind = .name name := by
    rw [stands.read]
    exact isName
  obtain ⟨first, rest, text, start, _⟩ := read_eq_word isWord
  have place : source = String.ofList ([] ++ front ++ inside ++ back) := by
    rw [List.nil_append, ← stands.whole, String.ofList_toList]
  have replaced : (token.span.replace source ("(" ++ inserted ++ "\n)")).toList =
      front ++ (Symbol.leftParen.chars ++ (inserted.toList ++ '\n' ::
        (Symbol.rightParen.chars ++ back))) := by
    rw [stands.span, place, Span.toList_replace_ofRun]
    simp [Symbol.chars]
  have rejoins : Rejoins (inside ++ back) (Symbol.leftParen.chars ++ (inserted.toList ++ '\n' ::
      (Symbol.rightParen.chars ++ back))) := by
    rw [text]
    exact rejoins_paren start rest _
  rw [replaced, stands.again _ rejoins, paren .leftParen rfl,
    kindsOf_lineBreak shape soundInserted, paren .rightParen rfl,
    behindKinds (by rw [isName]; rfl)]

theorem significantKinds_replace {source inserted name : String} {before behind : List Token}
    {token : Token} {kinds : List Kind}
    (whole : (Cursor.ofSource source).rest = before ++ token :: behind)
    (isName : token.kind = .name name)
    (sound : ∀ token ∈ (Cursor.ofSource source).rest, token.kind.isMalformed = false)
    (shape : significantKinds inserted = kinds ++ [.endOfInput])
    (soundInserted : ∀ token ∈ (Cursor.ofSource inserted).rest,
      token.kind.isMalformed = false) :
    significantKinds (token.span.replace source ("(" ++ inserted ++ "\n)")) =
      before.map Token.kind ++ .symbol .leftParen ::
        (kinds ++ .symbol .rightParen :: behind.map Token.kind) := by
  obtain ⟨earlier, later, split, rfl, rfl⟩ := exists_split_of_filter whole
  obtain ⟨all, shapeAll, _⟩ := kindsOf_eq_append inserted.toList
  rw [← map_kind_tokenize] at shapeAll
  have soundAll : ∀ kind ∈ all, kind.isMalformed = false := by
    intro kind member
    have inTokens : kind ∈ (tokenize inserted).map Token.kind := by
      rw [shapeAll]
      exact List.mem_append_left _ member
    obtain ⟨token, isToken, rfl⟩ := List.mem_map.mp inTokens
    exact sound_of_significant soundInserted token isToken
  have keptAll : all.filter (fun kind => !kind.isComment) = kinds := by
    rw [significantKinds, shapeAll, List.filter_append] at shape
    exact List.append_cancel_right shape
  have kept (tokens : List Token) : (tokens.map Token.kind).filter (fun kind => !kind.isComment) =
      (tokens.filter fun token => !token.kind.isComment).map Token.kind := List.filter_map
  have keptSymbol (mark : Symbol) (kinds : List Kind) :
      (Kind.symbol mark :: kinds).filter (fun kind => !kind.isComment) =
        .symbol mark :: kinds.filter (fun kind => !kind.isComment) := rfl
  rw [significantKinds, map_kind_tokenize,
    kindsOf_replace split isName (sound_of_significant sound) shapeAll soundAll]
  simp only [List.filter_append, keptSymbol, kept, keptAll]

namespace Expr

open ContractExpr.Parser

theorem sound_of_parse {source : String} {tree : Expr} (read : parse source = .ok tree) :
    ∀ token ∈ (Cursor.ofSource source).rest, token.kind.isMalformed = false := by
  obtain ⟨tokens, last, next, whole, isEnd, built⟩ := builds_of_parse read
  rw [whole]
  refine List.forall_mem_append.mpr ⟨fun token member => ?_, List.forall_mem_singleton.mpr ?_⟩
  · exact built.derives.sound _ (List.mem_map_of_mem member)
  · rw [isEnd]
    rfl

/-- A source with another one in parentheses in the place of a name that stands alone is read as
the tree with the node of the name replaced by the tree of the other source, or it is nested too
deeply. -/
theorem parse_replace {source inserted : String} {tree given whole : Expr} {name : String}
    {info : Info} (read : parse source = .ok tree) (readInserted : parse inserted = .ok given)
    (replaced : Replaced Field.IsGiven (.identifier name info) given tree whole) :
    (∃ result, parse (info.span.replace source ("(" ++ inserted ++ "\n)")) = .ok result ∧
      result.alike whole = true) ∨
    ∃ error, parse (info.span.replace source ("(" ++ inserted ++ "\n)")) = .error error ∧
      error.cause = .nestedTooDeeply := by
  obtain ⟨tokens, last, next, rest, isEnd, built⟩ := builds_of_parse read
  obtain ⟨kinds, shape, derived⟩ := derives_of_parse readInserted
  obtain ⟨before, token, behind, rfl, isName, place, graft⟩ :=
    built.grafts (.expression replaced)
  have split : (Cursor.ofSource source).rest = before ++ token :: (behind ++ [last]) := by
    simp [rest]
  have joined := significantKinds_replace split isName (sound_of_parse read) shape
    (sound_of_parse readInserted)
  rw [place] at joined
  have derived' := graft nestingLimit kinds derived
  obtain ⟨result, after, accepted, same⟩ := accepted_of_derives
    (by rw [joined]; simp [isEnd]) derived'
  have restricts := complete_restricts (Nat.le_add_left nestingLimit nestingLimit)
  rcases restricts (Cursor.ofSource (info.span.replace source ("(" ++ inserted ++ "\n)"))) with
    agrees | ⟨error, after', refused, nested⟩
  · exact Or.inl ⟨result, parse_eq_ok.mpr ⟨after, agrees.trans accepted⟩, same⟩
  · refine Or.inr ⟨error, ?_, nested⟩
    rw [parse, input, refused]
    rfl

/-- A conditional with a comment behind it in the place of a name, in front of a field access and
behind a sign. -/
theorem parse_replace_aggregate :
    let around (inner : Expr) : Expr := .unary .negate
      (.fieldAccess inner ⟨"f", ⟨2, ⟨3, 4, 1, 4⟩⟩⟩ ⟨3, ⟨1, 4, 1, 2⟩⟩) ⟨4, ⟨0, 4, 1, 1⟩⟩
    let name : Expr := .identifier "X" ⟨1, ⟨1, 2, 1, 2⟩⟩
    let given : Expr := .conditional (.identifier "b" ⟨1, ⟨0, 1, 1, 1⟩⟩)
      (.identifier "c" ⟨2, ⟨4, 5, 1, 5⟩⟩) (.identifier "d" ⟨3, ⟨8, 9, 1, 9⟩⟩) ⟨4, ⟨0, 9, 1, 1⟩⟩
    parse "-X.f" = .ok (around name) ∧ parse "b ? c : d // e" = .ok given ∧
      Span.replace ⟨1, 2, 1, 2⟩ "-X.f" "(b ? c : d // e\n)" = "-(b ? c : d // e\n).f" ∧
      ∃ result, parse "-(b ? c : d // e\n).f" = .ok result ∧
        result.alike (around given) = true := by
  intro around name given
  have read : parse "-X.f" = .ok (around name) := by with_unfolding_all rfl
  have readInserted : parse "b ? c : d // e" = .ok given := by with_unfolding_all rfl
  have text : Span.replace ⟨1, 2, 1, 2⟩ "-X.f" ("(" ++ "b ? c : d // e" ++ "\n)") =
      "-(b ? c : d // e\n).f" := by
    decide +kernel
  refine ⟨read, readInserted, text, ?_⟩
  rcases parse_replace read readInserted (.operand _ _ (.aggregate _ _ .here)) with
    result | ⟨error, failed, _⟩
  · exact text ▸ result
  · have accepts : (parse "-(b ? c : d // e\n).f").toOption.isSome = true := by decide +kernel
    rw [← text, failed] at accepts
    cases accepts

end Expr
end ContractExpr
