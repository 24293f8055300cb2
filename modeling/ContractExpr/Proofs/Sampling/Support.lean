import ContractExpr.Proofs.Sampling.Laws
import ContractExpr.Sampling.Sampler

/-! # What samplers can give

A sampler can give the values that some numbers lead to, whatever the supply holds before and behind
these numbers. So what a sampler can give follows from what its parts can give, and samplers are a
lawful library of strategies.
-/

set_option autoImplicit false

namespace ContractExpr

/-! ## Supplies -/

/-- From a place on, the supply goes on with the given numbers. -/
def Choices.Offers (choices : Choices) : Nat → List Nat → Prop
  | _, [] => True
  | index, number :: rest => choices index = number ∧ choices.Offers (index + 1) rest

theorem Choices.exists_offers (numbers : List Nat) :
    ∃ choices : Choices, choices.Offers 0 numbers := by
  have all : ∀ front back : List Nat,
      Choices.Offers (fun index => (front ++ back).getD index 0) front.length back := by
    intro front back
    induction back generalizing front with
    | nil => trivial
    | cons number rest ih => exact ⟨by simp, by simpa using ih (front ++ [number])⟩
  exact ⟨_, all [] numbers⟩

namespace Sampler

open Strategy

variable {α β : Type}

def Leads : Sampler α → α → Prop
  | give given, value => value = given
  | reject _, _ => False
  | draw next, value => ∃ number, Leads (next number) value

theorem leads_of_run {sampler : Sampler α} {value : α} {choices : Choices} {index : Nat}
    (given : (sampler.run choices index).1 = some value) : sampler.Leads value := by
  induction sampler generalizing index with
  | give => exact (Option.some.inj given).symm
  | reject => cases given
  | draw next ih => exact ⟨_, ih _ given⟩

theorem exists_numbers_of_leads {sampler : Sampler α} {value : α} (leads : sampler.Leads value) :
    ∃ numbers, ∀ choices : Choices, ∀ index, choices.Offers index numbers →
      (sampler.run choices index).1 = some value := by
  induction sampler with
  | give => exact ⟨[], fun _ _ _ => congrArg some leads.symm⟩
  | reject => cases leads
  | draw next ih =>
      obtain ⟨number, further⟩ := leads
      obtain ⟨numbers, given⟩ := ih number further
      refine ⟨number :: numbers, fun choices index offers => ?_⟩
      rw [run, offers.1]
      exact given choices (index + 1) offers.2

theorem canGive_iff {sampler : Sampler α} {value : α} :
    CanGive sampler value ↔ sampler.Leads value := by
  refine ⟨fun ⟨_, given⟩ => leads_of_run given, fun leads => ?_⟩
  obtain ⟨numbers, given⟩ := exists_numbers_of_leads leads
  obtain ⟨choices, offers⟩ := Choices.exists_offers numbers
  exact ⟨(choices, 0), given choices 0 offers⟩

/-! ## Samplers in a row -/

theorem leads_bind {sampler : Sampler α} {next : α → Sampler β} {result : β} :
    (sampler.bind next).Leads result ↔
      ∃ value, sampler.Leads value ∧ (next value).Leads result := by
  induction sampler with
  | give given => simp [bind, Leads]
  | reject => simp [bind, Leads]
  | draw further ih =>
      simp only [bind, Leads, ih]
      constructor
      · rintro ⟨number, value, leads, onward⟩
        exact ⟨value, ⟨number, leads⟩, onward⟩
      · rintro ⟨value, ⟨number, leads⟩, onward⟩
        exact ⟨number, value, leads, onward⟩

theorem leads_map {f : α → β} {sampler : Sampler α} {result : β} :
    (sampler.map f).Leads result ↔ ∃ value, sampler.Leads value ∧ f value = result := by
  simp only [map, leads_bind, Leads, eq_comm]

theorem leads_pair {first : Sampler α} {second : Sampler β} {value : α × β} :
    (first.pair second).Leads value ↔ first.Leads value.1 ∧ second.Leads value.2 := by
  obtain ⟨former, latter⟩ := value
  simp [pair, leads_bind, leads_map]

theorem leads_filterMap {reason : String} {f : α → Option β} {sampler : Sampler α} {result : β} :
    (filterMap reason f sampler).Leads result ↔
      ∃ value, sampler.Leads value ∧ f value = some result := by
  rw [filterMap, leads_bind]
  refine exists_congr fun value => and_congr_right fun _ => ?_
  cases f value with
  | none => simp [Leads]
  | some given => simp [Leads, eq_comm]

/-! ## Choices -/

theorem exists_choose {options : List α} (nonempty : options ≠ []) (property : α → Prop) :
    (∃ number, property (choose options nonempty number)) ↔
      ∃ option ∈ options, property option := by
  constructor
  · rintro ⟨number, holds⟩
    exact ⟨_, List.get_mem _ _, holds⟩
  · rintro ⟨option, member, holds⟩
    obtain ⟨place, rfl⟩ := List.get_of_mem member
    exact ⟨place, by simpa [choose, Nat.mod_eq_of_lt place.isLt] using holds⟩

theorem leads_element {options : List α} {nonempty : options ≠ []} {value : α} :
    (element options nonempty).Leads value ↔ value ∈ options := by
  have chosen := exists_choose nonempty (value = ·)
  simpa [element, Leads] using chosen

theorem leads_oneOf {options : List (Sampler α)} {nonempty : options ≠ []} {value : α} :
    (oneOf options nonempty).Leads value ↔ ∃ option ∈ options, option.Leads value :=
  exists_choose nonempty (·.Leads value)

theorem leads_numberBelow {bound value : Nat} (positive : 0 < bound) :
    (numberBelow bound).Leads value ↔ value < bound := by
  constructor
  · rintro ⟨number, rfl⟩
    exact Nat.mod_lt _ positive
  · intro small
    exact ⟨value, (Nat.mod_eq_of_lt small).symm⟩

/-! ## Lists -/

theorem leads_listOf {item : Sampler α} {count : Nat} {values : List α} :
    (listOf item count).Leads values ↔
      values.length = count ∧ ∀ value ∈ values, item.Leads value := by
  induction count generalizing values with
  | zero => cases values <;> simp [listOf, Leads]
  | succ count ih =>
      simp only [listOf, leads_bind, leads_map, ih]
      constructor
      · rintro ⟨first, leads, rest, ⟨long, each⟩, rfl⟩
        exact ⟨by simp [long], List.forall_mem_cons.mpr ⟨leads, each⟩⟩
      · rintro ⟨long, each⟩
        obtain ⟨first, rest, rfl⟩ := List.exists_cons_of_length_eq_add_one long
        obtain ⟨leads, others⟩ := List.forall_mem_cons.mp each
        exact ⟨first, leads, rest, ⟨Nat.succ.inj long, others⟩, rfl⟩

theorem leads_listBetween {item : Sampler α} {least most : Nat} (ordered : least ≤ most)
    {values : List α} :
    (listBetween item least most).Leads values ↔
      (least ≤ values.length ∧ values.length ≤ most) ∧ ∀ value ∈ values, item.Leads value := by
  simp only [listBetween, leads_bind, leads_numberBelow (Nat.succ_pos _), leads_listOf]
  constructor
  · rintro ⟨further, small, long, each⟩
    exact ⟨by omega, each⟩
  · rintro ⟨⟨lower, upper⟩, each⟩
    exact ⟨values.length - least, by omega, by omega, each⟩

/-! ## Names -/

/-- A list that holds the characters of a range of codes holds each character with such a code. -/
theorem mem_of_code {chars : List Char} {c : Char} {first count : Nat}
    (all : ∀ step < count, Char.ofNat (first + step) ∈ chars) (low : first ≤ c.toNat)
    (high : c.toNat < first + count) : c ∈ chars := by
  have found := all (c.toNat - first) (by omega)
  rwa [Nat.add_sub_cancel' low, Char.ofNat_toNat] at found

theorem mem_capitals {c : Char} : c ∈ capitals ↔ c.isUpper = true := by
  have only : capitals.all Char.isUpper = true := by decide
  have all : ∀ step < 26, Char.ofNat (65 + step) ∈ capitals := by decide
  refine ⟨List.all_eq_true.mp only c, fun upper => ?_⟩
  obtain ⟨low, high⟩ := (Text.isUpper_iff c).mp upper
  exact mem_of_code all low (by omega)

theorem mem_nameChars {c : Char} : c ∈ nameChars ↔ Text.isNamePart c = true := by
  have only : nameChars.all Text.isNamePart = true := by decide
  have digits : ∀ step < 10, Char.ofNat (48 + step) ∈ nameChars := by decide
  have capitals : ∀ step < 26, Char.ofNat (65 + step) ∈ nameChars := by decide
  have small : ∀ step < 26, Char.ofNat (97 + step) ∈ nameChars := by decide
  have underscore : ∀ step < 1, Char.ofNat (95 + step) ∈ nameChars := by decide
  refine ⟨List.all_eq_true.mp only c, fun part => ?_⟩
  rcases (Text.isNamePart_iff c).mp part with range | range | range | code
  · exact mem_of_code digits range.1 (by omega)
  · exact mem_of_code capitals range.1 (by omega)
  · exact mem_of_code small range.1 (by omega)
  · exact mem_of_code underscore (by omega) (by omega)

theorem leads_nameText {text : String} : nameText.Leads text ↔ Generator.FitsPattern text := by
  simp only [nameText, leads_bind, leads_map, leads_listBetween (Nat.zero_le 15), leads_element,
    mem_capitals, mem_nameChars, Generator.fitsPattern_iff]
  constructor
  · rintro ⟨first, upper, rest, ⟨⟨-, short⟩, parts⟩, rfl⟩
    exact ⟨first, rest, String.toList_ofList, upper, short, parts⟩
  · rintro ⟨first, rest, chars, upper, short, parts⟩
    exact ⟨first, upper, rest, ⟨⟨Nat.zero_le _, short⟩, parts⟩, by
      rw [← chars, String.ofList_toList]⟩

/-! ## Laws -/

instance : LawfulStrategy Sampler where
  canGive_just := canGive_iff
  canGive_bool {value} := canGive_iff.mpr (leads_element.mpr (by cases value <;> decide))
  canGive_below {_ _ positive} := canGive_iff.trans (leads_numberBelow positive)
  canGive_select := canGive_iff.trans leads_element
  canGive_union := by
    simp only [canGive_iff]
    exact leads_oneOf
  canGive_listOf {_ _ _ _ ordered _} := by
    simp only [canGive_iff]
    exact leads_listBetween ordered
  canGive_pair := by
    simp only [canGive_iff]
    exact leads_pair
  canGive_map := by
    simp only [canGive_iff]
    exact leads_map
  canGive_flatMap := by
    simp only [canGive_iff]
    exact leads_bind
  canGive_filter := by
    simp only [canGive_iff]
    exact leads_filterMap.trans (by simp)
  canGive_filterMap := by
    simp only [canGive_iff]
    exact leads_filterMap
  canGive_regex := ⟨nameText, if_pos rfl, fun text => canGive_iff.trans leads_nameText⟩

end Sampler
end ContractExpr
