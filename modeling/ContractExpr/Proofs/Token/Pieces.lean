import ContractExpr.Expr.Layout
import ContractExpr.Proofs.Token.Literals

/-! # Layouts read back

`ReadsAs pieces kinds` says that the text of a layout has tokens of the given kinds, whatever
follows it that does not go on with a word. One rule for each way of putting pieces together.
-/

set_option autoImplicit false

namespace ContractExpr

open Text Token Piece

def ReadsAs (pieces : List Piece) (kinds : List Kind) : Prop :=
  ∀ rest, EndsWord rest → kindsOf (Piece.write pieces ++ rest) = kinds ++ kindsOf rest

def Parts (pieces : List Piece) : Prop :=
  ∀ rest, EndsWord rest → EndsWord (Piece.write pieces ++ rest)

/-- A layout whose first character makes no other symbol of a negation before it. -/
def Opens (pieces : List Piece) : Prop :=
  ∃ c rest, Piece.write pieces = c :: rest ∧ c ≠ '!' ∧ c ≠ '='

theorem write_cons (piece : Piece) (pieces : List Piece) :
    Piece.write (piece :: pieces) = piece.chars ++ Piece.write pieces := rfl

theorem write_append (front back : List Piece) :
    Piece.write (front ++ back) = Piece.write front ++ Piece.write back :=
  List.flatMap_append

/-! ## What stands before and behind -/

theorem parts_nil : Parts [] := fun _ ends => ends

theorem parts_blank (pieces : List Piece) : Parts (.blank :: pieces) := by
  intro rest _
  rw [write_cons, Piece.chars, List.cons_append, List.cons_append, endsWord_cons]
  rfl

theorem parts_symbol (mark : Symbol) (pieces : List Piece) : Parts (.symbol mark :: pieces) := by
  intro rest _
  rw [write_cons]
  cases mark <;> exact (endsWord_cons _ _).mpr rfl

theorem opens_append {front : List Piece} (opens : Opens front) (back : List Piece) :
    Opens (front ++ back) := by
  obtain ⟨c, rest, text, plain⟩ := opens
  exact ⟨c, rest ++ Piece.write back, by rw [write_append, text, List.cons_append], plain⟩

theorem opens_symbol {mark : Symbol} (plain : mark.chars.head? ≠ some '!')
    (plain' : mark.chars.head? ≠ some '=') (pieces : List Piece) :
    Opens (.symbol mark :: pieces) := by
  obtain ⟨first, tail, chars⟩ : ∃ first tail, mark.chars = first :: tail := by
    cases mark <;> exact ⟨_, _, rfl⟩
  rw [chars, List.head?_cons, ne_eq, Option.some.injEq] at plain plain'
  exact ⟨first, tail ++ Piece.write pieces, by rw [write_cons, Piece.chars, chars]; rfl, plain,
    plain'⟩

theorem opens_operand {least strength : Nat} {pieces : List Piece}
    (opens : least ≤ strength → Opens pieces) : Opens (operand least strength pieces) := by
  unfold operand
  split
  · exact opens_symbol (by decide) (by decide) _
  · rename_i strong
    exact opens (Nat.le_of_not_lt strong)

/-! ## Putting pieces together -/

namespace ReadsAs

variable {front pieces : List Piece} {kinds further : List Kind}

theorem nil : ReadsAs [] [] := fun _ _ => rfl

theorem append (former : ReadsAs front kinds) (latter : ReadsAs pieces further)
    (parts : Parts pieces) : ReadsAs (front ++ pieces) (kinds ++ further) := by
  intro rest ends
  rw [write_append, List.append_assoc, former _ (parts rest ends), latter rest ends,
    List.append_assoc]

theorem blank (behind : ReadsAs pieces kinds) : ReadsAs (.blank :: pieces) kinds := by
  intro rest ends
  rw [write_cons, Piece.chars, List.singleton_append, List.cons_append, kindsOf_blank rfl,
    behind rest ends]

theorem solid (mark : Symbol) (solid : mark.isSolid = true)
    (behind : ReadsAs pieces kinds) : ReadsAs (.symbol mark :: pieces) (.symbol mark :: kinds) := by
  intro rest ends
  rw [write_cons, Piece.chars, List.append_assoc,
    kindsOf_symbol fun c _ => Symbol.extendedBy_of_isSolid solid c, behind rest ends]
  rfl

theorem bang (opens : Opens pieces) (behind : ReadsAs pieces kinds) :
    ReadsAs (.symbol .bang :: pieces) (.symbol .bang :: kinds) := by
  intro rest ends
  obtain ⟨c, tail, text, noBang, noEqual⟩ := opens
  have alone : Symbol.bang.extendedBy c = false := by
    simp [Symbol.extendedBy, Symbol.ofChars?, Symbol.all, Symbol.chars, Ne.symm noBang,
      Ne.symm noEqual]
  rw [write_cons, Piece.chars, List.append_assoc, kindsOf_symbol, behind rest ends]
  · rfl
  · intro c' head
    rw [text, List.cons_append, List.head?_cons, Option.some.injEq] at head
    rw [← head, alone]

theorem spaced (mark : Symbol) (behind : ReadsAs pieces kinds) :
    ReadsAs (Piece.spaced mark ++ pieces) (.symbol mark :: kinds) := by
  intro rest ends
  have alone : mark.extendedBy ' ' = false := by
    cases mark <;> decide
  have text : Piece.write (Piece.spaced mark ++ pieces) ++ rest =
      ' ' :: (mark.chars ++ ' ' :: (Piece.write pieces ++ rest)) := by
    simp [Piece.spaced, Piece.chars, Piece.write]
  rw [text, kindsOf_blank rfl, kindsOf_symbol, kindsOf_blank rfl, behind rest ends]
  · rfl
  · intro c head
    rw [List.head?_cons, Option.some.injEq] at head
    rw [← head, alone]

theorem word {text : String} {kind : Kind} (shape : isName text.toList = true)
    (isKind : Kind.ofWord text = kind) (behind : ReadsAs pieces kinds) (parts : Parts pieces) :
    ReadsAs (.word text :: pieces) (kind :: kinds) := by
  intro rest ends
  rw [write_cons, Piece.chars, List.append_assoc, kindsOf_word shape (parts rest ends), isKind,
    behind rest ends]
  rfl

theorem name {text : String} (usable : UsableName text) (behind : ReadsAs pieces kinds)
    (parts : Parts pieces) : ReadsAs (.word text :: pieces) (.name text :: kinds) :=
  word usable.1 (ofWord_of_not_reserved usable.2) behind parts

theorem number (value : Number) :
    ReadsAs [.number value] [.number value.base (String.ofList value.digits)] := by
  intro rest ends
  rw [write_cons, Piece.chars, List.append_assoc]
  exact kindsOf_number value ends

theorem string (content : String) : ReadsAs [.string content] [.string content] := by
  intro rest _
  rw [write_cons, Piece.chars, List.append_assoc]
  exact kindsOf_string content rest

end ReadsAs

end ContractExpr
