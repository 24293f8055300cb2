import ContractExpr.Proofs.Token.Literals
import Mathlib.Data.List.Induction
import Mathlib.Data.Nat.Digits.Defs

/-! # Numbers and the texts that denote them

A text denotes a natural number by the places of its digits. Reading a text gives the number with
this value, of any size, and writing it gives the text in lowercase without leading zeros. So
numbers of one base are equal exactly when their texts denote the same value.
-/

set_option autoImplicit false

namespace ContractExpr

namespace Base

def alphabet (base : Base) : List Char := "0123456789abcdef".toList.take base.radix

/-- Digits count in either case. -/
def HasDigit (base : Base) (c : Char) : Prop := c.toLower ∈ base.alphabet

instance (base : Base) (c : Char) : Decidable (base.HasDigit c) :=
  inferInstanceAs (Decidable (c.toLower ∈ base.alphabet))

def weight (base : Base) (c : Char) : Nat := base.alphabet.idxOf c.toLower

/-- The natural number that a text denotes: the digits from the last one on are weighed with the
powers of the radix. -/
def denoted (base : Base) (text : List Char) : Nat :=
  Nat.ofDigits base.radix (text.reverse.map base.weight)

/-- A text without leading zeros and in lowercase; a single zero stays. -/
def canonical (text : List Char) : List Char :=
  match text.dropWhile (· == '0') with
  | [] => ['0']
  | digits => digits.map Char.toLower

/-! ## Digits -/

theorem mem_all (base : Base) : base ∈ Base.all := by
  cases base <;> decide

theorem digitChar_weight {base : Base} {c : Char} (digit : base.HasDigit c) :
    base.weight c < base.radix ∧ (base.weight c).digitChar = c.toLower := by
  have all : ∀ base ∈ Base.all, (alphabet base).all (fun c =>
      (alphabet base).idxOf c < base.radix ∧ ((alphabet base).idxOf c).digitChar = c) = true := by
    decide
  exact of_decide_eq_true (List.all_eq_true.mp (all base base.mem_all) _ digit)

/-- Only ASCII characters have a lowercase form of their own. -/
theorem toLower_of_wide {c : Char} (wide : 128 ≤ c.toNat) : c.toLower = c := by
  refine dif_neg ?_
  rintro ⟨-, upper⟩
  rw [UInt32.le_iff_toNat_le] at upper
  exact absurd (Nat.le_trans wide upper) (by decide)

/-- A digit has the value of its weight, and no other character has a value. -/
theorem digit?_eq (base : Base) (c : Char) :
    base.digit? c = if base.HasDigit c then some (base.weight c) else none := by
  by_cases narrow : c.toNat < 128
  · have all : ∀ base ∈ Base.all, ∀ code < 128, digit? base (Char.ofNat code) =
        if base.HasDigit (Char.ofNat code) then some (base.weight (Char.ofNat code)) else none := by
      decide +kernel
    simpa using all base base.mem_all c.toNat narrow
  · have wide := Nat.le_of_not_lt narrow
    have digits : ∀ base ∈ Base.all, (alphabet base).all (·.toNat < 128) = true := by decide
    have noDigit : ¬base.HasDigit c := by
      rw [HasDigit, toLower_of_wide wide]
      intro member
      exact narrow (of_decide_eq_true (List.all_eq_true.mp (digits base base.mem_all) c member))
    have noValue : ¬base.isDigit c = true := by
      intro digit
      have part := isNamePart_of_isDigit digit
      rw [Text.isNamePart_iff] at part
      omega
    rw [if_neg noDigit]
    simpa [isDigit] using noValue

/-! ## Values -/

theorem denoted_concat (base : Base) (front : List Char) (c : Char) :
    base.denoted (front ++ [c]) = base.denoted front * base.radix + base.weight c := by
  rw [denoted, List.reverse_concat, List.map_cons, Nat.ofDigits_cons, denoted]
  ring

/-- A text of digits has the value that it denotes, and no other text has one. -/
theorem valueFrom?_eq_some {base : Base} {text : List Char} {value : Nat} :
    base.valueFrom? 0 text = some value ↔
      (∀ c ∈ text, base.HasDigit c) ∧ base.denoted text = value := by
  induction text using List.reverseRecOn generalizing value with
  | nil => simp [valueFrom?, denoted]
  | append_singleton front c ih =>
      rw [valueFrom?_append, denoted_concat, List.forall_mem_append, List.forall_mem_singleton]
      simp [Option.bind_eq_some_iff, ih, valueFrom?, digit?_eq, and_assoc]

theorem denoted_digits (base : Base) (value : Nat) : base.denoted (base.digits value) = value :=
  (valueFrom?_eq_some.mp (base.valueFrom?_digits value)).2

/-! ## Canonical texts -/

theorem eq_zero_of_toLower {c : Char} (lower : c.toLower = '0') : c = '0' := by
  by_cases narrow : c.toNat < 128
  · have all : ∀ code < 128, (Char.ofNat code).toLower = '0' → Char.ofNat code = '0' := by decide
    simpa using all c.toNat narrow (by simpa using lower)
  · exact (toLower_of_wide (Nat.le_of_not_lt narrow)).symm.trans lower

theorem weight_zero (base : Base) : base.weight '0' = 0 := by
  cases base <;> decide

theorem weight_pos {base : Base} {c : Char} (digit : base.HasDigit c) (noZero : c ≠ '0') :
    0 < base.weight c := by
  obtain ⟨-, written⟩ := digitChar_weight digit
  refine Nat.pos_of_ne_zero fun none => noZero (eq_zero_of_toLower ?_)
  rw [none] at written
  exact written.symm

theorem denoted_cons_zero (base : Base) (text : List Char) :
    base.denoted ('0' :: text) = base.denoted text := by
  simp [denoted, Nat.ofDigits_append, weight_zero]

theorem denoted_dropWhile (base : Base) (text : List Char) :
    base.denoted (text.dropWhile (· == '0')) = base.denoted text := by
  induction text with
  | nil => rfl
  | cons c rest ih =>
      by_cases zero : c = '0'
      · subst zero
        rw [List.dropWhile_cons_of_pos (by decide), ih, denoted_cons_zero]
      · rw [List.dropWhile_cons_of_neg (by simpa using zero)]

/-- A text without leading zeros is written again in lowercase. -/
theorem digits_denoted_of_head {base : Base} {text : List Char} {first : Char}
    (digits : ∀ c ∈ text, base.HasDigit c) (head : text.head? = some first) (noZero : first ≠ '0') :
    0 < base.denoted text ∧ base.digits (base.denoted text) = text.map Char.toLower := by
  induction text using List.reverseRecOn with
  | nil => cases head
  | append_singleton front c ih =>
      obtain ⟨others, digit⟩ := List.forall_mem_append.mp digits
      have digit := List.forall_mem_singleton.mp digit
      obtain ⟨below, written⟩ := digitChar_weight digit
      rw [denoted_concat]
      cases front with
      | nil =>
          cases head
          simp only [List.nil_append, denoted, List.reverse_nil, List.map_nil, Nat.ofDigits_nil,
            Nat.zero_mul, Nat.zero_add]
          exact ⟨weight_pos digit noZero, by
            rw [Base.digits, Nat.toDigits_of_lt_base below, written, List.map_singleton]⟩
      | cons near front =>
          obtain ⟨positive, again⟩ := ih others head
          have more := Nat.mul_pos positive (Nat.lt_trans Nat.zero_lt_one base.one_lt_radix)
          refine ⟨Nat.add_pos_left more _, ?_⟩
          have joined := Nat.toDigits_append_toDigits base.one_lt_radix positive below
          rw [Nat.mul_comm, Base.digits, ← joined, Nat.toDigits_of_lt_base below, written,
            List.map_append, ← again]
          rfl

/-- A text of digits is written again as its canonical text. -/
theorem digits_denoted {base : Base} {text : List Char} (digits : ∀ c ∈ text, base.HasDigit c) :
    base.digits (base.denoted text) = canonical text := by
  rw [← denoted_dropWhile, canonical]
  cases trimmed : text.dropWhile (· == '0') with
  | nil => cases base <;> rfl
  | cons first rest =>
      have noZero : first ≠ '0' := by
        have head := List.head?_dropWhile_not (· == '0') text
        simpa [trimmed] using head
      have inside : text.dropWhile (· == '0') ⊆ text := (List.dropWhile_sublist _).subset
      exact (digits_denoted_of_head (fun c member => digits c (inside (trimmed ▸ member))) rfl
        noZero).2

/-! ## The canonical text -/

theorem mem_alphabet_of_mem_canonical {base : Base} {text : List Char}
    (digits : ∀ c ∈ text, base.HasDigit c) : ∀ c ∈ canonical text, c ∈ base.alphabet := by
  unfold canonical
  split
  · exact List.forall_mem_singleton.mpr (by cases base <;> decide)
  · intro c member
    obtain ⟨written, inText, rfl⟩ := List.mem_map.mp member
    exact digits written ((List.dropWhile_sublist _).subset inText)

theorem canonical_of_head {text : List Char} (head : (canonical text).head? = some '0') :
    canonical text = ['0'] := by
  unfold canonical at head ⊢
  cases trimmed : text.dropWhile (· == '0') with
  | nil => rfl
  | cons first rest =>
      have noZero := List.head?_dropWhile_not (· == '0') text
      rw [trimmed] at head noZero
      have zero : first = '0' := eq_zero_of_toLower (Option.some.inj head)
      simp [zero] at noZero

end Base

namespace Number

open Base

theorem ofDigits?_eq_some {base : Base} {text : List Char} {number : Number} :
    ofDigits? base text = some number ↔
      text ≠ [] ∧ (∀ c ∈ text, base.HasDigit c) ∧ number = ⟨base, base.denoted text⟩ := by
  cases text with
  | nil => simp [ofDigits?]
  | cons first rest =>
      rw [ofDigits?, if_neg (by simp), Option.map_eq_some_iff]
      constructor
      · rintro ⟨value, read, rfl⟩
        obtain ⟨digits, rfl⟩ := valueFrom?_eq_some.mp read
        exact ⟨List.cons_ne_nil _ _, digits, rfl⟩
      · rintro ⟨-, digits, rfl⟩
        exact ⟨_, valueFrom?_eq_some.mpr ⟨digits, rfl⟩, rfl⟩

/-- A nonempty text of digits, and no other, gives a number of any size. The number is written as
the canonical text and read again from it, it is the same for two texts exactly when they denote the
same value, and it is the number of a word that holds this value. -/
theorem ofDigits?_canonical (base : Base) (text : List Char) :
    ((ofDigits? base text).isSome = true ↔ text ≠ [] ∧ ∀ c ∈ text, base.HasDigit c) ∧
    (∀ number, ofDigits? base text = some number →
      number.base = base ∧ number.digits = canonical text ∧
        (∀ c ∈ number.digits, c ∈ base.alphabet) ∧
        (number.digits.head? = some '0' → number.digits = ['0']) ∧
        base.denoted number.digits = base.denoted text ∧
        ofDigits? base number.digits = some number) ∧
    (∀ other number number', ofDigits? base text = some number →
      ofDigits? base other = some number' →
        ((number = number' ↔ base.denoted text = base.denoted other) ∧
          (number.digits = number'.digits ↔ base.denoted text = base.denoted other))) ∧
    ∀ word : BitVec 128, base.denoted (ofWord base word).digits = word.toNat ∧
      (text ≠ [] → (∀ c ∈ text, base.HasDigit c) → base.denoted text = word.toNat →
        ofDigits? base text = some (ofWord base word)) := by
  refine ⟨?_, fun number read => ?_, fun other number number' read read' => ?_, fun word => ?_⟩
  · simp [Option.isSome_iff_exists, ofDigits?_eq_some]
  · obtain ⟨nonempty, digits, rfl⟩ := ofDigits?_eq_some.mp read
    have written : (Number.mk base (base.denoted text)).digits = canonical text :=
      digits_denoted digits
    rw [written]
    refine ⟨rfl, rfl, mem_alphabet_of_mem_canonical digits, canonical_of_head, ?_, ?_⟩
    · rw [← digits_denoted digits, denoted_digits]
    · have again := ofDigits?_digits ⟨base, base.denoted text⟩
      rwa [String.toList_ofList, written] at again
  · obtain ⟨-, digits, rfl⟩ := ofDigits?_eq_some.mp read
    obtain ⟨-, digits', rfl⟩ := ofDigits?_eq_some.mp read'
    refine ⟨by simp, ⟨fun same => ?_, fun same => ?_⟩⟩
    · have denoted := congrArg base.denoted same
      rwa [Number.digits, Number.digits, denoted_digits, denoted_digits] at denoted
    · rw [same]
  · refine ⟨denoted_digits base word.toNat, fun nonempty digits value => ?_⟩
    exact ofDigits?_eq_some.mpr ⟨nonempty, digits, by rw [value, ofWord]⟩

/-- A hexadecimal text with zeros in front and a letter in either case. -/
theorem ofDigits?_canonical_mixed :
    ofDigits? .hexadecimal "00fF".toList = some (ofWord .hexadecimal 255) ∧
      (ofWord .hexadecimal 255).digits = "ff".toList ∧
      ofDigits? .hexadecimal "ff".toList = some (ofWord .hexadecimal 255) := by
  obtain ⟨isNumber, accepted, -, word⟩ := ofDigits?_canonical .hexadecimal "00fF".toList
  obtain ⟨nonempty, digits⟩ := isNumber.mp (by decide)
  have read := (word 255).2 nonempty digits (by decide)
  obtain ⟨-, written, -, -, -, again⟩ := accepted _ read
  have text : canonical "00fF".toList = "ff".toList := by decide
  rw [written, text] at again
  exact ⟨read, written.trans text, again⟩

end Number
end ContractExpr
