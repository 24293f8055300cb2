import ContractExpr.Proofs.Token.Joining

/-! # Texts cut between tokens

A text is cut in front of a token or behind one, and the tokens on the side that is kept are the
same. What is cut off never changes where a token ends: the end of a text may stand behind every
token.
-/

set_option autoImplicit false

namespace ContractExpr

open Text Token

/-- Every element that a filter keeps stands among all elements as it does among the kept ones. -/
theorem exists_split_of_filter {α : Type} {keep : α → Bool} {all before behind : List α} {kept : α}
    (whole : all.filter keep = before ++ kept :: behind) :
    ∃ earlier later, all = earlier ++ kept :: later ∧ earlier.filter keep = before ∧
      later.filter keep = behind := by
  obtain ⟨first, second, split, former, latter⟩ := List.filter_eq_append_iff.mp whole
  obtain ⟨dropped, later, rfl, none, _, behind⟩ := List.filter_eq_cons_iff.mp latter
  refine ⟨first ++ dropped, later, by simp [split], ?_, behind⟩
  rw [List.filter_append, former, List.filter_eq_nil_iff.mpr none, List.append_nil]

theorem exists_run_of_filter {α : Type} {keep : α → Bool} {all before inside behind : List α}
    {first last : α} (whole : all.filter keep = before ++ inside ++ behind)
    (head : inside.head? = some first) (final : inside.getLast? = some last)
    (kept : keep last = true) :
    ∃ earlier run later, all = earlier ++ run ++ later ∧ run.filter keep = inside ∧
      run.head? = some first ∧ run.getLast? = some last := by
  obtain ⟨others, rfl⟩ := List.head?_eq_some_iff.mp head
  obtain ⟨front, same⟩ := List.getLast?_eq_some_iff.mp final
  -- all is split behind the last element first, so that one element may be both
  obtain ⟨former, later, rfl, inFront, -⟩ := exists_split_of_filter
    (show all.filter keep = (before ++ front) ++ last :: behind by simp [whole, same])
  have closed : (former ++ [last]).filter keep = before ++ first :: others := by
    simp [inFront, same, kept]
  obtain ⟨earlier, latter, split, -, rfl⟩ := exists_split_of_filter closed
  have isFirst : keep first = true := List.of_mem_filter
    (show first ∈ (former ++ [last]).filter keep by simp [closed])
  refine ⟨earlier, first :: latter, later, ?_, by simp [isFirst], rfl, ?_⟩
  · rw [← split]
    simp
  · have ends := congrArg List.getLast? split
    simpa [List.getLast?_append] using ends.symm

namespace Tiled

variable {before text : List Char} {tokens earlier later : List Token} {token : Token}

/-- What stands from a token on is tiled by this token and those behind it. -/
theorem cut_before (tiled : Tiled before text tokens)
    (split : tokens = earlier ++ token :: later) :
    ∃ front rest, text = front ++ rest ∧ token.span.start = String.utf8Len (before ++ front) ∧
      Tiled (before ++ front) rest (token :: later) := by
  induction tiled generalizing earlier with
  | @last before gap final blank isEnd span =>
      obtain ⟨rfl, same⟩ := List.append_eq_singleton_iff.mp split.symm |>.resolve_right (by simp)
      cases same
      refine ⟨gap, [], by simp, by rw [span, Span.start_ofRun], ?_⟩
      exact .last (by simp) isEnd (by simpa using span)
  | @more before text first others gap inside rest whole blank begins read noEnd span behind ih =>
      cases earlier with
      | nil =>
          cases split
          refine ⟨gap, inside ++ rest, by simp [whole], by rw [span, Span.start_ofRun], ?_⟩
          exact .more [] inside rest rfl (by simp) begins read noEnd (by simpa using span)
            (by simpa using behind)
      | cons near earlier =>
          cases split
          obtain ⟨front, left, split, start, kept⟩ := ih rfl
          exact ⟨gap ++ inside ++ front, left, by simp [whole, split], by simpa using start,
            by simpa using kept⟩

theorem cut_behind (tiled : Tiled before text tokens)
    (sound : ∀ token ∈ tokens, token.kind.isMalformed = false)
    (split : tokens = earlier ++ token :: later) (noComment : token.kind.isComment = false)
    (more : token.kind.isEnd = false) :
    ∃ front rest final, text = front ++ rest ∧ front ≠ [] ∧ final.kind = .endOfInput ∧
      token.span.stop = String.utf8Len (before ++ front) ∧
      Tiled before front (earlier ++ [token, final]) := by
  induction tiled generalizing earlier with
  | @last before gap final blank isEnd span =>
      obtain ⟨rfl, same⟩ := List.append_eq_singleton_iff.mp split.symm |>.resolve_right (by simp)
      cases same
      rw [isEnd] at more
      cases more
  | @more before text first others gap inside rest whole blank begins read noEnd span behind ih =>
      obtain ⟨soundFirst, soundOthers⟩ := List.forall_mem_cons.mp sound
      obtain ⟨c, cs, solid, _⟩ := id begins
      have closed := Lexeme.read_closed (by simp [solid]) read soundFirst
      cases earlier with
      | nil =>
          cases split
          have again := closed.again [] (allows_of_parted noComment parted_nil)
          refine ⟨gap ++ inside, rest, ⟨.endOfInput, Span.ofRun (before ++ gap ++ inside) []⟩,
            whole, by simp [solid], rfl, by simp [span, Nat.add_assoc], ?_⟩
          exact .more gap inside [] (by simp) blank begins again more span
            (.last (by simp) rfl (by simp))
      | cons near earlier =>
          cases split
          obtain ⟨front, left, final, split, nonempty, isEnd, stop, kept⟩ := ih soundOthers rfl
          -- the token begins the text that is kept behind it, as it begins all that is behind it
          have allowed : Allows inside (front ++ left) first.kind := split ▸ closed.allows
          have allowed' := rejoins_append nonempty left [] _ _ allowed
          rw [List.append_nil] at allowed'
          refine ⟨gap ++ inside ++ front, left, final, by simp [whole, split], by simp [solid],
            isEnd, by simpa using stop, ?_⟩
          exact .more gap inside front rfl blank begins (closed.again front allowed') noEnd span
            kept

/-- The part of a text from the start of one token to the end of another has the tokens from the one
to the other. -/
theorem cut {run : List Token} {first last : Token} (tiled : Tiled before text tokens)
    (sound : ∀ token ∈ tokens, token.kind.isMalformed = false)
    (split : tokens = earlier ++ run ++ later) (head : run.head? = some first)
    (final : run.getLast? = some last) (noComment : last.kind.isComment = false)
    (more : last.kind.isEnd = false) :
    ∃ front inside back, text = front ++ inside ++ back ∧
      first.span.start = String.utf8Len (before ++ front) ∧
      last.span.stop = String.utf8Len (before ++ front ++ inside) ∧
      kindsOf inside = run.map Token.kind ++ [.endOfInput] := by
  obtain ⟨others, whole⟩ := List.head?_eq_some_iff.mp head
  obtain ⟨former, same⟩ := List.getLast?_eq_some_iff.mp final
  obtain ⟨kept, back, ended, rfl, -, isEnd, stop, tiled⟩ := tiled.cut_behind sound
    (show tokens = (earlier ++ former) ++ last :: later by simp [split, same]) noComment more
  obtain ⟨front, inside, rfl, start, tiled⟩ := tiled.cut_before
    (show earlier ++ former ++ [last, ended] = earlier ++ first :: (others ++ [ended]) by
      rw [List.append_assoc, ← List.cons_append, ← whole, same]
      simp)
  refine ⟨front, inside, back, rfl, start, by simpa using stop, ?_⟩
  rw [tiled.kinds, ← List.cons_append, ← whole, List.map_append, List.map_singleton, isEnd]

end Tiled
end ContractExpr
