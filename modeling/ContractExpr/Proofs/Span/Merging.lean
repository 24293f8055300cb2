import ContractExpr.Proofs.Token.Tiling

/-! # Spans merged one after the other

Whatever the order in which spans of one source are merged, the result reaches from the least start
to the greatest end and is on the line of the span that starts first. Its column is that of the
first merged span on this line, so it belongs to the start only where that span is the one that
starts first.
-/

set_option autoImplicit false

namespace ContractExpr

/-! ## Places of one text -/

namespace Position

theorem lastLineLength_append {text : List Char} (front : List Char) (oneLine : '\n' ∉ text) :
    lastLineLength (front ++ text) = lastLineLength front + text.length := by
  have all : ∀ c ∈ text.reverse, (c != '\n') = true := by
    intro c member
    rw [List.mem_reverse] at member
    exact bne_iff_ne.mpr fun same => oneLine (same ▸ member)
  rw [lastLineLength, lastLineLength, List.reverse_append, List.takeWhile_append_of_pos all,
    List.length_append, List.length_reverse, Nat.add_comm]

/-- Between places of the same line and column nothing stands. -/
theorem eq_nil_of_same_column {before between : List Char}
    (line : (start.advance (before ++ between)).line = (start.advance before).line)
    (column : (start.advance (before ++ between)).column = (start.advance before).column) :
    between = [] := by
  rw [advance_start, advance_start] at line column
  simp only [List.count_append] at line
  have oneLine : '\n' ∉ between := List.count_eq_zero.mp (by omega)
  simp only [lastLineLength_append before oneLine] at column
  exact List.length_eq_zero_iff.mp (by omega)

theorem eq_nil_of_offset_le {before between : List Char}
    (offset : (start.advance (before ++ between)).offset ≤ (start.advance before).offset) :
    between = [] := by
  rw [advance_start, advance_start] at offset
  simp only [String.utf8Len_append] at offset
  exact String.utf8Len_eq_zero.mp (by omega)

end Position

namespace Span

/-! ## Spans of one source -/

def position (span : Span) : Position := ⟨span.start, span.line, span.column⟩

/-- The span begins behind some characters of the source, with the line and column of this
place. -/
structure Stands (source : String) (span : Span) : Prop where
  ordered : span.start ≤ span.stop
  begins : ∃ before, before <+: source.toList ∧ Position.start.advance before = span.position

namespace Stands

variable {source : String} {first second : Span}

theorem between (stands : first.Stands source) (stands' : second.Stands source)
    (earlier : first.start ≤ second.start) :
    ∃ before between, Position.start.advance before = first.position ∧
      Position.start.advance (before ++ between) = second.position := by
  obtain ⟨before, inSource, place⟩ := stands.begins
  obtain ⟨before', inSource', place'⟩ := stands'.begins
  rcases List.prefix_or_prefix_of_prefix inSource inSource' with
    ⟨between, rfl⟩ | ⟨between, rfl⟩
  · exact ⟨before, between, place, place'⟩
  · -- the second begins in front of the first, but its offset is no less: they begin together
    have none : between = [] := Position.eq_nil_of_offset_le (by rw [place, place']; exact earlier)
    subst none
    rw [List.append_nil] at place
    exact ⟨before', [], place, by rwa [List.append_nil]⟩

theorem line_le (stands : first.Stands source) (stands' : second.Stands source)
    (earlier : first.start ≤ second.start) : first.line ≤ second.line := by
  obtain ⟨before, between, place, place'⟩ := stands.between stands' earlier
  have lines := Position.line_le before between
  rw [place, place'] at lines
  exact lines

theorem position_eq_of_start_eq (stands : first.Stands source) (stands' : second.Stands source)
    (same : first.start = second.start) : first.position = second.position := by
  obtain ⟨before, between, place, place'⟩ := stands.between stands' (Nat.le_of_eq same)
  have none : between = [] :=
    Position.eq_nil_of_offset_le (by rw [place, place']; exact Nat.le_of_eq same.symm)
  rw [← place, ← place', none, List.append_nil]

theorem column_ne_of_start_lt (stands : first.Stands source) (stands' : second.Stands source)
    (earlier : first.start < second.start) (line : first.line = second.line) :
    first.column ≠ second.column := by
  intro column
  obtain ⟨before, between, place, place'⟩ := stands.between stands' (Nat.le_of_lt earlier)
  have none : between = [] := Position.eq_nil_of_same_column
    (by rw [place, place']; exact line.symm) (by rw [place, place']; exact column.symm)
  rw [none, List.append_nil, place] at place'
  have same : first.start = second.start := congrArg Position.offset place'
  omega

theorem start_eq_of_line_column (stands : first.Stands source) (stands' : second.Stands source)
    (line : first.line = second.line) (column : first.column = second.column) :
    first.start = second.start := by
  rcases Nat.lt_trichotomy first.start second.start with earlier | same | later
  · exact absurd column (stands.column_ne_of_start_lt stands' earlier line)
  · exact same
  · exact absurd column.symm (stands'.column_ne_of_start_lt stands later line.symm)

end Stands

/-! ## What spans merge to -/

def firstOn (line : Nat) (spans : List Span) : Option Span :=
  spans.find? fun span => span.line == line

section FirstOn

variable {front back spans : List Span} {span : Span} {line : Nat}

theorem firstOn_eq_some (found : firstOn line spans = some span) :
    span ∈ spans ∧ span.line = line :=
  ⟨List.mem_of_find?_eq_some found, by simpa using List.find?_some found⟩

theorem firstOn_append_of_some (found : firstOn line front = some span) :
    firstOn line (front ++ back) = some span := by
  rw [firstOn, List.find?_append, ← firstOn, found, Option.some_or]

/-- A line above those of the former spans has its first span among the latter ones. -/
theorem firstOn_append_of_above (above : ∀ span ∈ front, line < span.line) :
    firstOn line (front ++ back) = firstOn line back := by
  have none : front.find? (fun span => span.line == line) = none := by
    apply List.find?_eq_none.mpr
    intro span member same
    have below := above span member
    rw [beq_iff_eq] at same
    omega
  rw [firstOn, List.find?_append, none, Option.none_or, firstOn]

end FirstOn

/-- The whole covers the spans, no line of theirs is above its own, and its column is that of the
first of them on its line. -/
structure Merged (spans : List Span) (whole : Span) : Prop where
  covers : ∀ span ∈ spans, whole.start ≤ span.start ∧ span.stop ≤ whole.stop
  starts : ∃ span ∈ spans, span.start = whole.start
  stops : ∃ span ∈ spans, span.stop = whole.stop
  line : ∀ span ∈ spans, whole.line ≤ span.line
  column : ∃ span, firstOn whole.line spans = some span ∧ span.column = whole.column

namespace Merged

variable {front back : List Span} {whole whole' : Span}

theorem single (span : Span) : Merged [span] span where
  covers := by simp
  starts := by simp
  stops := by simp
  line := by simp
  column := ⟨span, by simp [firstOn], rfl⟩

theorem append (former : Merged front whole) (latter : Merged back whole') :
    Merged (front ++ back) (whole.merge whole') where
  covers := by
    intro span member
    simp only [merge]
    rcases List.mem_append.mp member with inFront | inBack
    · have covers := former.covers span inFront
      omega
    · have covers := latter.covers span inBack
      omega
  starts := by
    obtain ⟨span, member, start⟩ := former.starts
    obtain ⟨span', member', start'⟩ := latter.starts
    rcases Nat.le_total whole.start whole'.start with earlier | later
    · exact ⟨span, List.mem_append_left _ member, by rw [start]; exact (Nat.min_eq_left earlier).symm⟩
    · exact ⟨span', List.mem_append_right _ member',
        by rw [start']; exact (Nat.min_eq_right later).symm⟩
  stops := by
    obtain ⟨span, member, stop⟩ := former.stops
    obtain ⟨span', member', stop'⟩ := latter.stops
    rcases Nat.le_total whole.stop whole'.stop with earlier | later
    · exact ⟨span', List.mem_append_right _ member',
        by rw [stop']; exact (Nat.max_eq_right earlier).symm⟩
    · exact ⟨span, List.mem_append_left _ member, by rw [stop]; exact (Nat.max_eq_left later).symm⟩
  line := by
    intro span member
    simp only [merge]
    rcases List.mem_append.mp member with inFront | inBack
    · have line := former.line span inFront
      omega
    · have line := latter.line span inBack
      omega
  column := by
    obtain ⟨top, found, column⟩ := former.column
    obtain ⟨top', found', column'⟩ := latter.column
    simp only [merge]
    by_cases above : whole.line ≤ whole'.line
    · rw [Nat.min_eq_left above, if_pos above]
      exact ⟨top, firstOn_append_of_some found, column⟩
    · rw [Nat.min_eq_right (by omega), if_neg above]
      refine ⟨top', ?_, column'⟩
      rw [firstOn_append_of_above, found']
      intro span member
      have line := former.line span member
      omega

theorem foldl (merged : Merged front whole) (rest : List Span) :
    Merged (front ++ rest) (rest.foldl merge whole) := by
  induction rest generalizing front whole with
  | nil => rwa [List.append_nil]
  | cons next rest ih =>
      have behind := ih (merged.append (single next))
      rwa [List.append_assoc] at behind

end Merged

/-- The whole reaches from the least start to the greatest end, and is on the line of the span that
starts first. -/
structure Covers (spans : List Span) (whole : Span) : Prop where
  around : ∀ span ∈ spans, whole.start ≤ span.start ∧ span.stop ≤ whole.stop
  starts : ∃ span ∈ spans, span.start = whole.start
  stops : ∃ span ∈ spans, span.stop = whole.stop
  line : ∀ span ∈ spans, span.start = whole.start → span.line = whole.line

/-- The smallest span that covers the others, with the line and column of the one that starts
first. -/
structure Hull (spans : List Span) (whole : Span) : Prop extends Covers spans whole where
  column : ∀ span ∈ spans, span.start = whole.start → span.column = whole.column

section Order

variable {source : String} {spans order : List Span} {whole : Span}

theorem Merged.covers_of_perm (merged : Merged order whole) (same : order.Perm spans)
    (stand : ∀ span ∈ spans, span.Stands source) : Covers spans whole where
  around := fun span member => merged.covers span (same.mem_iff.mpr member)
  starts := by
    obtain ⟨span, member, start⟩ := merged.starts
    exact ⟨span, same.mem_iff.mp member, start⟩
  stops := by
    obtain ⟨span, member, stop⟩ := merged.stops
    exact ⟨span, same.mem_iff.mp member, stop⟩
  line := by
    intro span member start
    obtain ⟨top, found, _⟩ := merged.column
    obtain ⟨inOrder, onLine⟩ := firstOn_eq_some found
    -- the span that starts first is on no later line than the one on the line of the whole
    have earlier : span.start ≤ top.start := start ▸ (merged.covers top inOrder).1
    have line := (stand span member).line_le (stand top (same.mem_iff.mp inOrder)) earlier
    have above := merged.line span (same.mem_iff.mpr member)
    omega

theorem Merged.hull_iff (merged : Merged order whole) (same : order.Perm spans)
    (stand : ∀ span ∈ spans, span.Stands source) :
    Hull spans whole ↔ ∃ top, firstOn whole.line order = some top ∧ top.start = whole.start := by
  have covers := merged.covers_of_perm same stand
  obtain ⟨top, found, column⟩ := merged.column
  obtain ⟨inOrder, onLine⟩ := firstOn_eq_some found
  have inSpans : top ∈ spans := same.mem_iff.mp inOrder
  constructor
  · intro hull
    refine ⟨top, found, ?_⟩
    obtain ⟨span, member, start⟩ := covers.starts
    have place := hull.column span member start
    rw [← start]
    exact (stand top inSpans).start_eq_of_line_column (stand span member)
      (onLine.trans (covers.line span member start).symm) (column.trans place.symm)
  · rintro ⟨top', found', first⟩
    obtain rfl : top = top' := Option.some.inj (found.symm.trans found')
    refine ⟨covers, fun span member start => ?_⟩
    have place := (stand span member).position_eq_of_start_eq (stand top inSpans)
      (start.trans first.symm)
    exact (congrArg Position.column place).trans column

/-- In whatever order spans of a source are merged, the result covers them and is on the line of
the one that starts first. It has the column of that one exactly when the first merged span on this
line is one that starts there. -/
theorem foldl_merge_covers {first : Span} {rest : List Span}
    (stand : ∀ span ∈ spans, span.Stands source) (order : (first :: rest).Perm spans) :
    let whole := rest.foldl merge first
    Covers spans whole ∧
      (Hull spans whole ↔
        ∃ top, firstOn whole.line (first :: rest) = some top ∧ top.start = whole.start) := by
  intro whole
  have merged : Merged (first :: rest) whole := (Merged.single first).foldl rest
  exact ⟨merged.covers_of_perm order stand, merged.hull_iff order stand⟩

end Order

/-- Merged from the last to the first, spans on two lines keep the column of the one that starts
first. -/
theorem foldl_merge_covers_backwards :
    Hull [⟨0, 1, 1, 1⟩, ⟨4, 6, 2, 1⟩, ⟨9, 10, 2, 6⟩]
      ([⟨4, 6, 2, 1⟩, ⟨0, 1, 1, 1⟩].foldl merge ⟨9, 10, 2, 6⟩) := by
  have stand : ∀ span ∈ ([⟨0, 1, 1, 1⟩, ⟨4, 6, 2, 1⟩, ⟨9, 10, 2, 6⟩] : List Span),
      span.Stands "a +\nbb * c" := by
    simp only [List.forall_mem_cons]
    exact ⟨⟨by decide, [], by decide, rfl⟩, ⟨by decide, "a +\n".toList, by decide, rfl⟩,
      ⟨by decide, "a +\nbb * ".toList, by decide, rfl⟩, by simp⟩
  have order : ([⟨9, 10, 2, 6⟩, ⟨4, 6, 2, 1⟩, ⟨0, 1, 1, 1⟩] : List Span).Perm
      [⟨0, 1, 1, 1⟩, ⟨4, 6, 2, 1⟩, ⟨9, 10, 2, 6⟩] := by decide
  exact (foldl_merge_covers stand order).2.mpr ⟨⟨0, 1, 1, 1⟩, by decide, by decide⟩

/-- Of two spans on one line the one that is merged first gives the column, also when the other
starts first. -/
theorem merge_not_hull :
    let source := "alpha  +  gamma"
    let alpha : Span := ⟨0, 5, 1, 1⟩
    let gamma : Span := ⟨10, 15, 1, 11⟩
    (alpha.Stands source ∧ gamma.Stands source) ∧
      ([gamma].foldl merge alpha = ⟨0, 15, 1, 1⟩ ∧
        Hull [alpha, gamma] ([gamma].foldl merge alpha)) ∧
      [alpha].foldl merge gamma = ⟨0, 15, 1, 11⟩ ∧
        ¬Hull [alpha, gamma] ([alpha].foldl merge gamma) := by
  intro source alpha gamma
  have stand : alpha.Stands source ∧ gamma.Stands source :=
    ⟨⟨by decide, [], by decide, rfl⟩, ⟨by decide, "alpha  +  ".toList, by decide, rfl⟩⟩
  refine ⟨stand, ⟨rfl, ?_⟩, rfl, fun hull => ?_⟩
  · have both : ∀ span ∈ [alpha, gamma], span.Stands source := by simpa using stand
    have merged : Merged [alpha, gamma] ([gamma].foldl merge alpha) := (Merged.single alpha).foldl _
    exact (merged.hull_iff (List.Perm.refl _) both).mpr ⟨alpha, rfl, rfl⟩
  · have column := hull.column alpha List.mem_cons_self rfl
    exact absurd column (by decide)

end Span
end ContractExpr
