import Mathlib.Data.List.Induction
import Mathlib.Data.String.Basic
import ContractExpr.Parser.Session
import ContractExpr.Proofs.Token.Extents

/-! # Tokens tile their source

The spans of the tokens of a source follow each other without overlap, with nothing but blanks
between them, and each has the line and column of its first character. `Tiled` follows the reader
from token to token; `Tiling` says the same of the spans alone.
-/

set_option autoImplicit false

namespace ContractExpr

open Text Token

/-! ## Positions -/

namespace Position

theorem advance_append (position : Position) (front back : List Char) :
    position.advance (front ++ back) = (position.advance front).advance back :=
  List.foldl_append

def lastLineLength (text : List Char) : Nat := (text.reverse.takeWhile (· != '\n')).length

/-- A position counts the bytes, the line breaks and the characters of the last line before it. -/
theorem advance_start (text : List Char) :
    start.advance text =
      ⟨String.utf8Len text, 1 + text.count '\n', 1 + lastLineLength text⟩ := by
  induction text using List.reverseRecOn with
  | nil => rfl
  | append_singleton text c ih =>
      have last : start.advance (text ++ [c]) = (start.advance text).after c := by
        rw [advance_append]
        rfl
      rw [last, ih, after]
      by_cases lineBreak : c = '\n'
      · subst lineBreak
        simp [lastLineLength, Nat.add_assoc]
      · simp [lastLineLength, lineBreak, Nat.add_comm]

theorem line_le (before behind : List Char) :
    (start.advance before).line ≤ (start.advance (before ++ behind)).line := by
  rw [advance_start, advance_start, List.count_append]
  exact Nat.add_le_add_left (Nat.le_add_right _ _) 1

end Position

/-! ## Parts of a source -/

namespace Span

def text (span : Span) (source : String) : String :=
  String.Pos.Raw.extract source ⟨span.start⟩ ⟨span.stop⟩

def front (span : Span) (source : String) : String :=
  String.Pos.Raw.extract source ⟨0⟩ ⟨span.start⟩

def ofRun (before inside : List Char) : Span :=
  between (Position.start.advance before) (Position.start.advance (before ++ inside))

section OfRun

variable (before inside behind : List Char)

@[simp]
theorem start_ofRun : (ofRun before inside).start = String.utf8Len before := by
  rw [ofRun, between, Position.advance_start]

@[simp]
theorem stop_ofRun :
    (ofRun before inside).stop = String.utf8Len before + String.utf8Len inside := by
  rw [ofRun, between, Position.advance_start (before ++ inside), String.utf8Len_append]

theorem text_ofRun :
    (ofRun before inside).text (String.ofList (before ++ inside ++ behind)) =
      String.ofList inside := by
  rw [text, start_ofRun, stop_ofRun, String.extract_of_valid]

theorem front_ofRun :
    (ofRun before inside).front (String.ofList (before ++ inside ++ behind)) =
      String.ofList before := by
  have whole := String.extract_of_valid [] before (inside ++ behind)
  rw [front, start_ofRun]
  simpa using whole

end OfRun

end Span

theorem isValid_utf8Len (before behind : List Char) :
    String.Pos.Raw.IsValid (String.ofList (before ++ behind)) ⟨String.utf8Len before⟩ :=
  String.Pos.Raw.isValid_iff_exists_append.mpr
    ⟨String.ofList before, String.ofList behind, String.ofList_append,
      (String.rawEndPos_ofList before).symm⟩

/-! ## From token to token -/

/-- The tokens are read from the text that stands behind the characters before it. -/
inductive Tiled : List Char → List Char → List Token → Prop where
  | last {before gap : List Char} {token : Token} (blank : ∀ c ∈ gap, isBlank c = true)
      (isEnd : token.kind = .endOfInput) (span : token.span = Span.ofRun (before ++ gap) []) :
      Tiled before gap [token]
  | more {before text : List Char} {token : Token} {tokens : List Token}
      (gap inside rest : List Char) (whole : text = gap ++ inside ++ rest)
      (blank : ∀ c ∈ gap, isBlank c = true)
      (begins : ∃ first others, inside = first :: others ∧ isBlank first = false)
      (read : Lexeme.read (inside ++ rest) = ⟨token.kind, inside.length⟩)
      (noEnd : token.kind.isEnd = false) (span : token.span = Span.ofRun (before ++ gap) inside)
      (behind : Tiled (before ++ gap ++ inside) rest tokens) : Tiled before text (token :: tokens)

theorem not_isBlank_of_head {text : List Char} {c : Char}
    (head : (text.dropWhile isBlank).head? = some c) : isBlank c = false := by
  have first := List.head?_dropWhile_not isBlank text
  rw [head] at first
  exact first

namespace Reader

theorem next_eq (reader : Reader) (before : List Char)
    (here : reader.position = Position.start.advance before) :
    ∃ gap inside rest : List Char, reader.text = gap ++ inside ++ rest ∧
      (∀ c ∈ gap, isBlank c = true) ∧
      (∀ c, (inside ++ rest).head? = some c → isBlank c = false) ∧
      Lexeme.read (inside ++ rest) = ⟨reader.next.1.kind, inside.length⟩ ∧
      reader.next.1.span = Span.ofRun (before ++ gap) inside ∧
      reader.next.2 = ⟨Position.start.advance (before ++ gap ++ inside), rest⟩ := by
  let behind := reader.text.dropWhile isBlank
  let lexeme := Lexeme.read behind
  have whole : behind.take lexeme.length ++ behind.drop lexeme.length = behind :=
    List.take_append_drop _ _
  have taken : (behind.take lexeme.length).length = lexeme.length := by
    rw [List.length_take]
    exact Nat.min_eq_left (Lexeme.read_length_le behind)
  have first : reader.skipBlanks.position =
      Position.start.advance (before ++ reader.text.takeWhile isBlank) := by
    rw [skipBlanks, here, Position.advance_append]
  have last : reader.next.2.position = Position.start.advance
      (before ++ reader.text.takeWhile isBlank ++ behind.take lexeme.length) := by
    rw [Position.advance_append, ← first]
    rfl
  refine ⟨reader.text.takeWhile isBlank, behind.take lexeme.length, behind.drop lexeme.length,
    ?_, List.all_eq_true.mp List.all_takeWhile, ?_, ?_, ?_, ?_⟩
  · rw [List.append_assoc, whole, List.takeWhile_append_dropWhile]
  · intro c head
    rw [whole] at head
    exact not_isBlank_of_head head
  · rw [whole, taken]
    rfl
  · rw [Span.ofRun, ← first, ← last]
    rfl
  · rw [← last]
    rfl

theorem tiled (reader : Reader) (before : List Char)
    (here : reader.position = Position.start.advance before) :
    Tiled before reader.text reader.tokens := by
  fun_induction Reader.tokens reader generalizing before with
  | case1 reader step isEnd =>
      obtain ⟨gap, inside, rest, whole, blank, _, read, span, _⟩ := reader.next_eq before here
      have empty : inside ++ rest = [] := by
        cases text : inside ++ rest with
        | nil => rfl
        | cons first others =>
            have noEnd := Lexeme.isEnd_read_cons first others
            rw [← text, read, isEnd] at noEnd
            cases noEnd
      obtain ⟨rfl, rfl⟩ := List.append_eq_nil_iff.mp empty
      rw [whole, List.append_nil, List.append_nil]
      exact .last blank (Kind.eq_of_isEnd isEnd) span
  | case2 reader step more ih =>
      obtain ⟨gap, inside, rest, whole, blank, begins, read, span, next⟩ :=
        reader.next_eq before here
      have noEnd : step.1.kind.isEnd = false := Bool.eq_false_iff.mpr more
      have behind := ih _ (congrArg Reader.position next)
      rw [show step.2.text = rest from congrArg Reader.text next] at behind
      cases inside with
      | nil =>
          -- a token of no character would be read from no text
          have length : (Lexeme.read rest).length = 0 := congrArg Lexeme.length read
          cases rest with
          | nil =>
              have isEnd : step.1.kind = .endOfInput := (congrArg Lexeme.kind read).symm
              rw [isEnd] at noEnd
              cases noEnd
          | cons first others =>
              have positive := Lexeme.read_length_pos first others
              omega
      | cons first others =>
          exact .more gap _ rest whole blank ⟨first, others, rfl, begins first rfl⟩ read noEnd span
            behind

end Reader

/-! ## Tokens in their source -/

/-- A token stands in its source: where it begins and ends, and whether it takes anything. -/
structure Placed (source : List Char) (token : Token) (before inside behind : List Char) :
    Prop where
  whole : source = before ++ inside ++ behind
  span : token.span = Span.ofRun before inside
  takes : token.kind.isEnd = false → inside ≠ []
  ends : token.kind.isEnd = true → inside = [] ∧ behind = []

namespace Tiled

variable {before text : List Char} {tokens : List Token}

theorem placed (tiled : Tiled before text tokens) :
    ∀ token ∈ tokens, ∃ front inside behind,
      Placed (before ++ text) token (before ++ front) inside behind := by
  induction tiled with
  | @last before gap token blank isEnd span =>
      refine List.forall_mem_singleton.mpr ⟨gap, [], [], by simp, span, ?_, fun _ => ⟨rfl, rfl⟩⟩
      intro more
      rw [isEnd] at more
      cases more
  | @more before text token tokens gap inside rest whole blank begins read noEnd span behind ih =>
      obtain ⟨first, others, rfl, _⟩ := begins
      refine List.forall_mem_cons.mpr ⟨⟨gap, first :: others, rest, ?_, span, by simp, ?_⟩, ?_⟩
      · simp [whole]
      · intro isEnd
        rw [noEnd] at isEnd
        cases isEnd
      · intro token member
        obtain ⟨front, inside, behind, placed⟩ := ih token member
        refine ⟨gap ++ (first :: others) ++ front, inside, behind, ?_⟩
        simpa [whole] using placed

theorem front_le_start (tiled : Tiled before text tokens) :
    ∀ token ∈ tokens, String.utf8Len before ≤ token.span.start := by
  intro token member
  obtain ⟨front, inside, behind, placed⟩ := tiled.placed token member
  rw [placed.span, Span.start_ofRun, String.utf8Len_append]
  exact Nat.le_add_right _ _

end Tiled

/-! ## Spans that tile a source -/

/-- The parts of a source in front of each token, from the token before it or from the start. -/
def gaps (source : String) (tokens : List Token) : List String :=
  List.zipWith (fun stop start => String.Pos.Raw.extract source ⟨stop⟩ ⟨start⟩)
    (0 :: tokens.map fun token => token.span.stop) (tokens.map fun token => token.span.start)

structure Tiling (source : String) (tokens : List Token) : Prop where
  /-- The end token is the last one, and there is no other. -/
  ends : EndsOnce tokens
  /-- Spans lie within the source, between whole characters. -/
  bounds : ∀ token ∈ tokens,
    String.Pos.Raw.IsValid source ⟨token.span.start⟩ ∧
      String.Pos.Raw.IsValid source ⟨token.span.stop⟩
  nonempty : ∀ token ∈ tokens, token.kind.isEnd = false → token.span.start < token.span.stop
  ordered : tokens.Pairwise fun earlier later =>
    earlier.span.start < later.span.start ∧ earlier.span.stop ≤ later.span.start
  blank : ∀ gap ∈ gaps source tokens, ∀ c ∈ gap.toList, isBlank c = true
  atEnd : ∀ token ∈ tokens, token.kind.isEnd = true →
    token.span.start = source.utf8ByteSize ∧ token.span.stop = source.utf8ByteSize
  line : ∀ token ∈ tokens, token.span.line = 1 + (token.span.front source).toList.count '\n'
  /-- Columns count characters from the last line break on. -/
  column : ∀ token ∈ tokens,
    token.span.column = 1 + Position.lastLineLength (token.span.front source).toList

namespace Placed

variable {source before inside behind : List Char} {token : Token}
  (placed : Placed source token before inside behind)

include placed

theorem start_eq : token.span.start = String.utf8Len before := by
  rw [placed.span, Span.start_ofRun]

theorem stop_eq : token.span.stop = String.utf8Len before + String.utf8Len inside := by
  rw [placed.span, Span.stop_ofRun]

theorem front_eq : token.span.front (String.ofList source) = String.ofList before := by
  rw [placed.span, placed.whole, Span.front_ofRun]

theorem bounds : String.Pos.Raw.IsValid (String.ofList source) ⟨token.span.start⟩ ∧
    String.Pos.Raw.IsValid (String.ofList source) ⟨token.span.stop⟩ := by
  rw [placed.start_eq, placed.stop_eq, ← String.utf8Len_append, placed.whole]
  exact ⟨by rw [List.append_assoc]; exact isValid_utf8Len _ _, isValid_utf8Len _ _⟩

theorem start_lt_stop (more : token.kind.isEnd = false) : token.span.start < token.span.stop := by
  have positive : String.utf8Len inside ≠ 0 := fun none =>
    placed.takes more (String.utf8Len_eq_zero.mp none)
  rw [placed.start_eq, placed.stop_eq]
  omega

theorem atEnd (isEnd : token.kind.isEnd = true) :
    token.span.start = (String.ofList source).utf8ByteSize ∧
      token.span.stop = (String.ofList source).utf8ByteSize := by
  obtain ⟨rfl, rfl⟩ := placed.ends isEnd
  rw [placed.start_eq, placed.stop_eq, placed.whole, String.utf8ByteSize_ofList]
  simp

theorem line_eq :
    token.span.line = 1 + (token.span.front (String.ofList source)).toList.count '\n' := by
  rw [placed.front_eq, String.toList_ofList, placed.span, Span.ofRun, Span.between,
    Position.advance_start]

theorem column_eq : token.span.column =
    1 + Position.lastLineLength (token.span.front (String.ofList source)).toList := by
  rw [placed.front_eq, String.toList_ofList, placed.span, Span.ofRun, Span.between,
    Position.advance_start]

end Placed

namespace Tiled

variable {before text : List Char} {tokens : List Token}

theorem ordered (tiled : Tiled before text tokens) :
    tokens.Pairwise fun earlier later =>
      earlier.span.start < later.span.start ∧ earlier.span.stop ≤ later.span.start := by
  induction tiled with
  | last => exact List.pairwise_singleton _ _
  | @more before text token tokens gap inside rest whole blank begins read noEnd span behind ih =>
      refine List.pairwise_cons.mpr ⟨?_, ih⟩
      intro later member
      obtain ⟨first, others, rfl, _⟩ := begins
      have reached := behind.front_le_start later member
      have taken : String.utf8Len (first :: others) ≠ 0 := fun none => by
        cases String.utf8Len_eq_zero.mp none
      rw [span, Span.start_ofRun, Span.stop_ofRun]
      rw [String.utf8Len_append] at reached
      omega

theorem blank (tiled : Tiled before text tokens) :
    ∀ gap ∈ List.zipWith
        (fun stop start =>
          String.Pos.Raw.extract (String.ofList (before ++ text)) ⟨stop⟩ ⟨start⟩)
        (String.utf8Len before :: tokens.map fun token => token.span.stop)
        (tokens.map fun token => token.span.start),
      ∀ c ∈ gap.toList, isBlank c = true := by
  induction tiled with
  | @last before gap token blank isEnd span =>
      have cut := String.extract_of_valid before gap []
      rw [List.append_nil] at cut
      rw [List.map_singleton, List.map_singleton, List.zipWith_cons_cons, List.zipWith_nil_right,
        List.forall_mem_singleton, span, Span.start_ofRun, String.utf8Len_append, cut,
        String.toList_ofList]
      exact blank
  | @more before text token tokens gap inside rest whole blank begins read noEnd span behind ih =>
      have cut := String.extract_of_valid before gap (inside ++ rest)
      have same : before ++ text = before ++ gap ++ (inside ++ rest) := by simp [whole]
      rw [List.map_cons, List.map_cons, List.zipWith_cons_cons, List.forall_mem_cons, same]
      constructor
      · rw [span, Span.start_ofRun, String.utf8Len_append, cut, String.toList_ofList]
        exact blank
      · rw [span, Span.stop_ofRun, ← String.utf8Len_append, ← List.append_assoc]
        exact ih

end Tiled

/-! ## Reading one token after the other -/

namespace Reader

def answer (reader : Reader) : Nat → Token
  | 0 => reader.next.1
  | count + 1 => reader.next.2.answer count

theorem dropWhile_of_end {reader : Reader} (ended : reader.next.1.kind.isEnd = true) :
    reader.text.dropWhile isBlank = [] := by
  rw [next_kind] at ended
  cases text : reader.text.dropWhile isBlank with
  | nil => rfl
  | cons first rest =>
      rw [text, Lexeme.isEnd_read_cons] at ended
      cases ended

theorem answer_of_end {reader : Reader} (ended : reader.next.1.kind.isEnd = true) (count : Nat) :
    reader.answer count = reader.next.1 := by
  have none := dropWhile_of_end ended
  have next : reader.next = (⟨.endOfInput, Span.between reader.skipBlanks.position
      reader.skipBlanks.position⟩, ⟨reader.skipBlanks.position, []⟩) := by
    simp only [Reader.next, skipBlanks, skip, none]
    rfl
  have still (count : Nat) : (⟨reader.skipBlanks.position, []⟩ : Reader).answer count =
      reader.next.1 := by
    induction count with
    | zero =>
        rw [next]
        rfl
    | succ count ih => exact ih
  cases count with
  | zero => rfl
  | succ count =>
      rw [answer, next]
      exact (still count).trans (by rw [next])

/-- The answers are the tokens in order, and then the last token for ever. -/
theorem answer_eq (reader : Reader) (count : Nat) :
    some (reader.answer count) = reader.tokens[count]?.or reader.tokens.getLast? := by
  induction count generalizing reader with
  | zero =>
      cases ended : reader.next.1.kind.isEnd with
      | true =>
          rw [tokens_of_end ended]
          rfl
      | false =>
          rw [tokens_of_more ended]
          rfl
  | succ count ih =>
      cases ended : reader.next.1.kind.isEnd with
      | true =>
          rw [tokens_of_end ended, answer_of_end ended]
          rfl
      | false =>
          have nonempty : reader.next.2.tokens ≠ [] :=
            List.ne_nil_of_length_pos reader.next.2.tokens_endsOnce.length_pos
          rw [tokens_of_more ended, answer, ih, List.getElem?_cons_succ,
            List.getLast?_cons_of_ne_nil nonempty]

end Reader

/-- The tokens of a source tile it, and a reader that is asked again and again answers them in
order, and the last one for ever after. -/
theorem tokenize_tiles (source : String) :
    Tiling source (tokenize source) ∧
      ∀ count, some ((Reader.ofString source).answer count) =
        (tokenize source)[count]?.or (tokenize source).getLast? := by
  refine ⟨?_, (Reader.ofString source).answer_eq⟩
  have tiled : Tiled [] source.toList (tokenize source) :=
    (Reader.ofString source).tiled [] rfl
  have each {holds : Token → Prop} (of : ∀ {token before inside behind},
      Placed source.toList token before inside behind → holds token) :
      ∀ token ∈ tokenize source, holds token := by
    intro token member
    obtain ⟨front, inside, behind, placed⟩ := tiled.placed token member
    exact of placed
  have text : String.ofList source.toList = source := String.ofList_toList
  exact {
    ends := (Reader.ofString source).tokens_endsOnce
    bounds := each fun placed => text ▸ placed.bounds
    nonempty := each fun placed => placed.start_lt_stop
    ordered := tiled.ordered
    blank := by
      have blank := tiled.blank
      rw [List.nil_append, text] at blank
      exact blank
    atEnd := each fun placed => text ▸ placed.atEnd
    line := each fun placed => text ▸ placed.line_eq
    column := each fun placed => text ▸ placed.column_eq }

/-- A column counts characters, and a span bytes. -/
example : (tokenize "é\n /* ü */ 7").map Token.span =
    [⟨0, 2, 1, 1⟩, ⟨4, 12, 2, 2⟩, ⟨13, 14, 2, 10⟩, ⟨14, 14, 2, 11⟩] := by
  decide +kernel

end ContractExpr
