import ContractExpr.Proofs.Roundtrip.Rendering
import ContractExpr.Proofs.Token.Alone

/-! # Usable names

A word is a name of its own exactly when it has the shape of one and is not reserved, and reserved
words of this shape are just those with a token of their own. No accepted source has any other name
in its tree.
-/

set_option autoImplicit false

namespace ContractExpr

open Text Token

theorem alone_ofWord {word : String} (shape : isName word.toList = true) :
    Alone word (Kind.ofWord word) := by
  obtain ⟨first, rest, chars, start⟩ := isNameStart_of_isName shape
  have read := Lexeme.read_ofWord shape endsWord_nil
  rw [List.append_nil] at read
  refine alone_iff.mpr ⟨isEnd_ofWord word, fun c head => ?_, read⟩
  rw [chars] at head
  cases head
  exact isBlank_of_isNamePart (isNamePart_of_isNameStart start)

theorem alone_of_keyword? {word : String} {kind : Kind} (shape : isName word.toList = true)
    (keyword : Kind.keyword? word = some kind) : Alone word kind := by
  have alone := alone_ofWord shape
  rwa [Kind.ofWord, keyword, Option.getD_some] at alone

namespace Expr

theorem parse_eq_identifier_iff (word : String) :
    (∃ info, parse word = .ok (.identifier word info)) ↔ UsableName word := by
  constructor
  · rintro ⟨info, read⟩
    exact wellNamed_identifier.mp (wellNamed_of_parse read)
  · intro usable
    let tree := identifier word Info.built
    have named : tree.WellNamed := wellNamed_identifier.mpr usable
    have fits : tree.levels ≤ Parser.nestingLimit := Nat.succ_le_succ (Nat.zero_le _)
    have text : tree.render = word := by
      simp [tree, render, layout, Piece.write, Piece.chars]
    obtain ⟨read, parsed, same⟩ := parse_render named fits
    rw [text] at parsed
    obtain ⟨info, rfl⟩ := alike_identifier (alike_symm same)
    exact ⟨info, parsed⟩

/-- A word is read as a name of its own exactly when it has the shape of one and is not reserved.
Among the words of this shape the reserved ones are those with a token of their own, which is then
all they are read as. Every name in the tree of an accepted source can be read so. -/
theorem parse_names (word : String) :
    ((∃ info, parse word = .ok (.identifier word info)) ↔
      isName word.toList = true ∧ isReserved word = false) ∧
    (isName word.toList = true →
      (isReserved word = true ↔ (Kind.keyword? word).isSome = true) ∧
      ∀ kind, Kind.keyword? word = some kind → Alone word kind) ∧
    ∀ source tree, parse source = .ok tree → word ∈ tree.words →
      isName word.toList = true ∧ isReserved word = false := by
  refine ⟨parse_eq_identifier_iff word, fun shape => ⟨?_, fun kind => alone_of_keyword? shape⟩,
    fun source tree read member => wellNamed_of_parse read word member⟩
  rw [Option.isSome_iff_ne_none, Ne, keyword?_eq_none_iff, Bool.not_eq_false]

/-- A name for everything that can have one, and the word between them that never is one. -/
theorem parse_names_everywhere :
    Alone "initOf" .initOf ∧
      ∃ tree, parse "f(P{key}.get(), initOf Child(x.y))" = .ok tree ∧
        tree.words = ["f", "P", "key", "key", "get", "Child", "x", "y"] ∧
        ∀ word ∈ tree.words, isName word.toList = true ∧ isReserved word = false := by
  have words : (parse "f(P{key}.get(), initOf Child(x.y))").toOption.map Expr.words =
      some ["f", "P", "key", "key", "get", "Child", "x", "y"] := by decide +kernel
  obtain ⟨tree, read, names⟩ := exists_ok_of_toOption words
  exact ⟨((parse_names "initOf").2.1 (by decide)).2 _ rfl, tree, read, names,
    fun word member => (parse_names word).2.2 _ tree read member⟩

end Expr
end ContractExpr
