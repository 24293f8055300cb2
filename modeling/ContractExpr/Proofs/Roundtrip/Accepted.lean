import ContractExpr.Proofs.Roundtrip.Domain

/-! # Whether an accepted source survives formatting

A tree that was read from a source opens at most one level more than the limit when it is written:
the value of a field that the source left out opens a level only in the rendering. A source that
leaves out no value survives.
-/

set_option autoImplicit false

namespace ContractExpr.Expr

open Token Grammar

/-! ## Signs before a field without a value -/

theorem kindsOf_minuses (count : Nat) (rest : List Char) :
    kindsOf (List.replicate count '-' ++ rest) =
      List.replicate count (.symbol .minus) ++ kindsOf rest := by
  induction count with
  | zero => rfl
  | succ count ih =>
      have first : kindsOf (Symbol.minus.chars ++ (List.replicate count '-' ++ rest)) =
          .symbol .minus :: kindsOf (List.replicate count '-' ++ rest) :=
        kindsOf_symbol fun c _ => Symbol.extendedBy_of_isSolid rfl c
      rw [ih] at first
      exact first

theorem derives_signed_negated {brief : Bool} {left : Nat} {tree : Expr} {kinds : List Kind}
    (count : Nat) (derived : Derives brief left (.signed tree) kinds) :
    Derives brief (left + count) (.signed (negated count tree))
      (List.replicate count (.symbol .minus) ++ kinds) := by
  induction count with
  | zero => exact derived
  | succ count ih => exact .sign .negate Info.built rfl ih

theorem derives_negated {brief : Bool} {left : Nat} {tree : Expr} {kinds : List Kind}
    (count : Nat) (derived : Derives brief left (.signed tree) kinds) :
    Derives brief (left + count + 1) (.expression (negated count tree))
      (List.replicate count (.symbol .minus) ++ kinds) := by
  have signed : Derives brief (left + count)
      (.ofStrength Precedence.sign (negated count tree)) _ := derives_signed_negated count derived
  have loosest : Derives brief (left + count)
      (.ofStrength Precedence.loosestBinary (negated count tree)) _ :=
    signed.loosen (by decide) (by decide)
  exact .unconditional (loosest.chain_of_strength (by decide))

/-- A number of signs before an instance of a struct whose field has no value. -/
def signedShorthand (count : Nat) : String :=
  String.ofList (List.replicate count '-' ++ ['P', '\x7b', 'F', '\x7d'])

def shorthandTree : Expr :=
  .structInstance ⟨"P", Info.built⟩
    [⟨⟨"F", Info.built⟩, .identifier "F" Info.built, Info.built⟩] Info.built

theorem derives_shorthandTree (left : Nat) :
    Derives true left (.signed shorthandTree)
      [.name "P", .symbol .leftBrace, .name "F", .symbol .rightBrace] := by
  let entry : Field Expr × List Kind :=
    (⟨⟨"F", Info.built⟩, .identifier "F" Info.built, Info.built⟩, [.name "F"])
  have each : ∀ given ∈ [entry], Derives true left (.field given.1) given.2 :=
    List.forall_mem_singleton.mpr (.briefField rfl ⟨"F", Info.built⟩ Info.built Info.built)
  exact .unsigned (.unsuffixed (.structInstance ⟨"P", Info.built⟩ Info.built
    (.fields [entry] each .plain)))

theorem significantKinds_signedShorthand (count : Nat) :
    significantKinds (signedShorthand count) =
      (List.replicate count (.symbol .minus) ++
        [.name "P", .symbol .leftBrace, .name "F", .symbol .rightBrace]) ++ [.endOfInput] := by
  have usable : UsableName "P" ∧ UsableName "F" := ⟨⟨by decide, by decide⟩, by decide, by decide⟩
  have struct : ReadsAs [.word "P", .symbol .leftBrace, .word "F", .symbol .rightBrace]
      [.name "P", .symbol .leftBrace, .name "F", .symbol .rightBrace] :=
    .name usable.1 (.solid _ rfl (.name usable.2 (.solid _ rfl .nil) (parts_symbol _ _)))
      (parts_symbol _ _)
  have last := struct [] endsWord_nil
  rw [kindsOf_nil] at last
  have whole : kindsOf ['P', '\x7b', 'F', '\x7d'] = _ := last
  rw [significantKinds, map_kind_tokenize, signedShorthand, String.toList_ofList,
    kindsOf_minuses, whole, List.filter_append, List.filter_replicate_of_pos rfl, List.append_assoc]
  rfl

/-! ## Accepted sources -/

/-- The tree of an accepted source survives exactly when it opens no more levels than the limit
allows. It opens at most one more, and none if every field of the source has its value. -/
theorem checkRoundtrip_of_accepted {source : String} {tree : Expr}
    (read : parse source = .ok tree) :
    (tree.checkRoundtrip = .ok () ↔ tree.levels ≤ Parser.nestingLimit) ∧
      tree.levels ≤ Parser.nestingLimit + 1 ∧
      (∀ kinds, significantKinds source = kinds ++ [.endOfInput] →
        Derives false Parser.nestingLimit (.expression tree) kinds →
        tree.checkRoundtrip = .ok ()) ∧
      (Parser.nestingLimit < tree.levels →
        ∃ error, tree.checkRoundtrip = .error (.unparseable tree.render error) ∧
          error.cause = .nestedTooDeeply) := by
  obtain ⟨kinds, shape, derived⟩ := derives_of_parse read
  have named := wellNamed_of_derives shape derived
  refine ⟨⟨?_, checkRoundtrip_of_fits named⟩, derived.levels_le, ?_, checkRoundtrip_of_deep named⟩
  · intro survives
    obtain ⟨reread, parsed, _⟩ := checkRoundtrip_eq_ok.mp survives
    exact levels_le_of_parse named parsed
  · intro kinds _ strict
    exact checkRoundtrip_of_fits named strict.levels_le

/-- Behind ninety-eight signs the struct stands on the last level but one, which leaves a level for
the value of the field. -/
theorem checkRoundtrip_ninetyEight_signs :
    ∃ tree, parse (signedShorthand 98) = .ok tree ∧ tree.checkRoundtrip = .ok () := by
  have shape := significantKinds_signedShorthand 98
  have derived := derives_negated 98 (derives_shorthandTree 1)
  obtain ⟨tree, read, same⟩ := parse_of_derives shape derived
  have levels : (negated 98 shorthandTree).levels = 100 := levels_negated 98 (by decide)
  have fits : tree.levels ≤ 100 := by
    rw [← levels]
    exact levels_le_of_alike (alike_symm same)
  exact ⟨tree, read, (checkRoundtrip_of_accepted read).1.mpr fits⟩

/-- Behind ninety-nine signs the struct stands on the last level: the source is accepted, and the
rendering of its tree is nested too deeply. -/
theorem checkRoundtrip_signedShorthand :
    ∃ tree error, parse (signedShorthand 99) = .ok tree ∧
      tree.checkRoundtrip = .error (.unparseable tree.render error) ∧
      error.cause = .nestedTooDeeply := by
  have shape := significantKinds_signedShorthand 99
  have derived := derives_negated 99 (derives_shorthandTree 0)
  obtain ⟨read, parsed, same⟩ := parse_of_derives shape derived
  have strong : Precedence.sign ≤ Precedence.primary := by decide
  have levels : (negated 99 shorthandTree).levels = 101 := levels_negated 99 strong
  have deep : Parser.nestingLimit < (negated 99 shorthandTree).levels := by
    rw [levels]
    decide
  obtain ⟨error, failed, nested⟩ := parse_render_fails (wellNamed_of_derives shape derived) deep
  rw [← render_eq_of_alike same] at failed
  exact ⟨read, error, parsed, checkRoundtrip_of_error failed, nested⟩

end ContractExpr.Expr
