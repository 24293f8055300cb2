import ContractExpr.CommandLine
import ContractExpr.Proofs.Expr.OneLine
import ContractExpr.Proofs.Roundtrip.Rendering

/-! # Files formatted in place

A file that cannot be read as an expression stays as it is. Any other file gets the canonical text
of its expression with a line break behind it, and formatting it once more, however often, changes
nothing: either this text is refused, or it is read as the same tree.
-/

set_option autoImplicit false

namespace ContractExpr

open Text Token Grammar

theorem fromUTF8?_toUTF8 (text : String) : String.fromUTF8? text.toUTF8 = some text := by
  rw [String.fromUTF8?, String.toUTF8_eq_toByteArray, dif_pos text.isValidUTF8]
  rfl

namespace Expr

theorem alike_of_parse_line {tree again : Expr} (named : tree.WellNamed)
    (read : parse (tree.render ++ "\n") = .ok again) : again.alike tree = true := by
  have none : significantKinds "\n" = [.endOfInput] :=
    significantKinds_blanks (List.forall_mem_singleton.mpr (by decide))
  have own := significantKinds_render_append named "\n" ((endsWord_cons _ _).mpr rfl)
  obtain ⟨kinds, shape, derived⟩ := derives_of_parse read
  rw [own, none, List.append_cancel_right_eq] at shape
  subst shape
  exact alike_of_derives derived (derives_kinds tree)

end Expr

namespace CommandLine

/-! ## Content before and behind -/

/-- The bytes of the file of a command behind its outcome, as long as files can be written. -/
def Outcome.contentAfter (outcome : Outcome) (before? : Option ByteArray) : Option ByteArray :=
  match outcome.written? with
  | some text => some text.toUTF8
  | none => before?

def formatted (file : String) (content? : Option ByteArray) (clock : Nat) : Option ByteArray :=
  (execute content? clock (.format file true)).contentAfter content?

theorem lines_singleton (text : String) : lines [text] = text ++ "\n" := by
  simp [lines, String.join]

theorem readExpr_eq_ok {content? : Option ByteArray} {tree : Expr} :
    readExpr content? = .ok tree ↔
      ∃ source, content?.bind String.fromUTF8? = some source ∧ Expr.parse source = .ok tree := by
  rw [readExpr]
  cases content?.bind String.fromUTF8? with
  | none => simp
  | some source => cases parsed : Expr.parse source <;> simp [Except.mapError, parsed]

/-- Whatever keeps a file from being read, the exit code is one. -/
theorem exitCode_of_readExpr {content? : Option ByteArray} {diagnostic : Diagnostic}
    (unread : readExpr content? = .error diagnostic) : diagnostic.exitCode = 1 := by
  rw [readExpr] at unread
  split at unread
  · cases unread
    rfl
  · rename_i source _
    cases parsed : Expr.parse source with
    | ok tree => simp [parsed, Except.mapError] at unread
    | error error =>
        rw [parsed] at unread
        cases unread
        rfl

/-! ## Formatting in place -/

/-- The file has been formatted, or it cannot be. -/
def Settled (content? : Option ByteArray) : Prop :=
  ∀ tree, readExpr content? = .ok tree → content? = some (tree.render ++ "\n").toUTF8

section Formatted

variable {file : String} {content? : Option ByteArray} {clock : Nat} {tree : Expr}

theorem formatted_of_read (read : readExpr content? = .ok tree) :
    formatted file content? clock = some (tree.render ++ "\n").toUTF8 := by
  simp only [formatted, execute, executeFormat, read, Outcome.contentAfter, lines_singleton,
    if_true]

theorem execute_format_of_unread (unread : ∀ tree, readExpr content? ≠ .ok tree) :
    ∃ diagnostic, execute content? clock (.format file true) = .failure diagnostic ∧
      diagnostic.exitCode = 1 := by
  cases answer : readExpr content? with
  | ok tree => exact absurd answer (unread tree)
  | error diagnostic =>
      refine ⟨diagnostic, ?_, exitCode_of_readExpr answer⟩
      simp only [execute, executeFormat, answer]

theorem formatted_of_unread (unread : ∀ tree, readExpr content? ≠ .ok tree) :
    formatted file content? clock = content? := by
  obtain ⟨diagnostic, failed, -⟩ := execute_format_of_unread unread
  rw [formatted, failed]
  rfl

theorem Settled.formatted_eq (settled : Settled content?) :
    formatted file content? clock = content? := by
  by_cases read : ∃ tree, readExpr content? = .ok tree
  · obtain ⟨tree, read⟩ := read
    rw [formatted_of_read read, ← settled tree read]
  · exact formatted_of_unread fun tree isOk => read ⟨tree, isOk⟩

theorem settled_formatted : Settled (formatted file content? clock) := by
  by_cases read : ∃ tree, readExpr content? = .ok tree
  · obtain ⟨tree, read⟩ := read
    obtain ⟨source, _, parsed⟩ := readExpr_eq_ok.mp read
    rw [formatted_of_read read]
    intro again reread
    obtain ⟨line, whole, parsed'⟩ := readExpr_eq_ok.mp reread
    rw [Option.bind_some, fromUTF8?_toUTF8] at whole
    cases whole
    rw [Expr.render_eq_of_alike (Expr.alike_of_parse_line (Expr.wellNamed_of_parse parsed) parsed')]
  · have unread := fun tree isOk => read ⟨tree, isOk⟩
    rw [formatted_of_unread unread]
    exact fun tree isOk => absurd isOk (unread tree)

/-- Once a file is settled, it is the same behind any number of runs. -/
theorem Settled.foldl_formatted (settled : Settled content?) (clocks : List Nat) :
    clocks.foldl (formatted file) content? = content? := by
  induction clocks with
  | nil => rfl
  | cons clock clocks ih => rw [List.foldl_cons, settled.formatted_eq, ih]

end Formatted

/-- A file that holds no expression is left as it is, with nothing on standard output. Any other
file is made the one line that is printed without the option, and this line means the same where it
is accepted. No further run changes the file. -/
theorem execute_format_inPlace (file : String) (clock : Nat) (content? : Option ByteArray) :
    let outcome := execute content? clock (.format file true)
    let printed := (execute content? clock (.format file false)).output
    let after := outcome.contentAfter content?
    ((∀ source tree, content?.bind String.fromUTF8? = some source →
        Expr.parse source ≠ .ok tree) →
      outcome.exitCode = 1 ∧ outcome.output = "" ∧ after = content?) ∧
    (∀ source tree, content?.bind String.fromUTF8? = some source → Expr.parse source = .ok tree →
      outcome.exitCode = 0 ∧ after = some printed.toUTF8 ∧
        (∃ line, printed = line ++ "\n" ∧ ∀ c ∈ line.toList, isControl c = false) ∧
        ∀ again, Expr.parse printed = .ok again → again.alike tree = true) ∧
    ∀ clocks : List Nat, clocks.foldl (formatted file) after = after := by
  intro outcome printed after
  refine ⟨fun unread => ?_, fun source tree whole parsed => ?_, ?_⟩
  · have unread' : ∀ tree, readExpr content? ≠ .ok tree := by
      intro tree isOk
      obtain ⟨source, whole, parsed⟩ := readExpr_eq_ok.mp isOk
      exact unread source tree whole parsed
    obtain ⟨diagnostic, failed, code⟩ := execute_format_of_unread unread'
    have stays : after = content? := formatted_of_unread unread'
    rw [show outcome = .failure diagnostic from failed]
    exact ⟨code, rfl, stays⟩
  · have read := readExpr_eq_ok.mpr ⟨source, whole, parsed⟩
    have named := Expr.wellNamed_of_parse parsed
    have line : printed = tree.render ++ "\n" := by
      simp only [printed, execute, executeFormat, read, Outcome.success, lines_singleton]
      rfl
    refine ⟨?_, ?_, ⟨tree.render, line, Expr.isControl_of_mem_render named⟩, fun again reread => ?_⟩
    · simp only [outcome, execute, executeFormat, read]
      rfl
    · rw [line]
      exact formatted_of_read read
    · rw [line] at reread
      exact Expr.alike_of_parse_line named reread
  · exact settled_formatted.foldl_formatted

/-- A string literal with a tab character in it, and a comment, in the file. -/
theorem execute_format_inPlace_tab :
    let content? := some "\"\t\"+b // c".toUTF8
    let outcome := execute content? 0 (.format "f" true)
    outcome.exitCode = 0 ∧ outcome.contentAfter content? = some "\"\\t\" + b\n".toUTF8 ∧
      [1, 2].foldl (formatted "f") (outcome.contentAfter content?) =
        some "\"\\t\" + b\n".toUTF8 := by
  intro content? outcome
  have whole : content?.bind String.fromUTF8? = some "\"\t\"+b // c" := fromUTF8?_toUTF8 _
  have seen : ((Expr.parse "\"\t\"+b // c").toOption.map Expr.render) =
      some "\"\\t\" + b" := by
    decide +kernel
  obtain ⟨tree, parsed, rendered⟩ := exists_ok_of_toOption seen
  obtain ⟨-, accepted, again⟩ := execute_format_inPlace "f" 0 content?
  obtain ⟨exits, holds, -⟩ := accepted _ tree whole parsed
  have printed : (execute content? 0 (.format "f" false)).output = "\"\\t\" + b\n" := by
    simp only [execute, executeFormat, readExpr_eq_ok.mpr ⟨_, whole, parsed⟩, rendered,
      lines_singleton]
    rfl
  rw [printed] at holds
  exact ⟨exits, holds, (again [1, 2]).trans holds⟩

end CommandLine
end ContractExpr
