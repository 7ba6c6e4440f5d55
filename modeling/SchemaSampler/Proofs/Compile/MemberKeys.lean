import Mathlib
import SchemaSampler.Compile
import SchemaSampler.Proofs.Entries.Merged

/-!
# Keys of members

The members of an `allOf` container stand under their places, written with at least four digits.
The container is sorted by these keys as texts. Keys of four digits are sorted as their places are,
so the container keeps the order in which the members are declared, but a key of five digits comes
before the last ones of four.

Results:
1. `lt_of_ofDigitChars_lt`: among numerals of one length the lesser text writes the lesser number.
2. `memberKey_injective`, `memberKey_lt`: keys of different places, and of places below 10000.
3. `memberSlots_perm`, `memberSlots_of_few`: what a container holds, and in which order if it is
   small.
-/

namespace SchemaSampler

namespace Compiler

/-! ## Numerals -/

theorem toNat_of_isDigit {c : Char} (digit : c.isDigit = true) :
    '0'.toNat ≤ c.toNat ∧ c.toNat ≤ '9'.toNat := by
  simp only [Char.isDigit, Bool.and_eq_true, decide_eq_true_eq, ge_iff_le,
    UInt32.le_iff_toNat_le] at digit
  exact digit

theorem ofDigitChars_lt {digits : List Char} (each : ∀ c ∈ digits, c.isDigit = true) :
    Nat.ofDigitChars 10 digits 0 < 10 ^ digits.length := by
  induction digits with
  | nil => simp
  | cons c rest ih =>
    have later := ih fun other present => each other (List.mem_cons_of_mem _ present)
    have bounds := toNat_of_isDigit (each c List.mem_cons_self)
    have digit : c.toNat - '0'.toNat ≤ 9 := by
      simp at bounds ⊢
      omega
    rw [Nat.ofDigitChars_cons, Nat.ofDigitChars_eq_ofDigitChars_zero, List.length_cons, pow_succ]
    nlinarith

theorem lt_of_ofDigitChars_lt {digits others : List Char} (same : digits.length = others.length)
    (each : ∀ c ∈ digits, c.isDigit = true) (eachOther : ∀ c ∈ others, c.isDigit = true)
    (below : Nat.ofDigitChars 10 digits 0 < Nat.ofDigitChars 10 others 0) : digits < others := by
  induction digits generalizing others with
  | nil =>
    cases others with
    | nil => simp at below
    | cons d others => simp at same
  | cons c digits ih =>
    cases others with
    | nil => simp at same
    | cons d others =>
      have eachLater : ∀ c ∈ digits, c.isDigit = true := fun c present =>
        each c (List.mem_cons_of_mem _ present)
      have eachOtherLater : ∀ c ∈ others, c.isDigit = true := fun c present =>
        eachOther c (List.mem_cons_of_mem _ present)
      have length : digits.length = others.length := by simpa using same
      rw [Nat.ofDigitChars_cons, Nat.ofDigitChars_cons, Nat.ofDigitChars_eq_ofDigitChars_zero,
        Nat.ofDigitChars_eq_ofDigitChars_zero (l := others), length] at below
      rcases lt_trichotomy c d with less | rfl | greater
      · exact List.cons_lt_cons_iff.mpr (.inl less)
      · refine List.cons_lt_cons_iff.mpr (.inr ⟨rfl, ih length eachLater eachOtherLater ?_⟩)
        omega
      · -- The first digit decides: what follows it stays below the next power.
        have bound := ofDigitChars_lt eachOtherLater
        have order : d.toNat < c.toNat := greater
        have digit := toNat_of_isDigit (eachOther d List.mem_cons_self)
        have first : d.toNat - '0'.toNat + 1 ≤ c.toNat - '0'.toNat := by omega
        have scaled := Nat.mul_le_mul_left (10 ^ others.length) first
        exfalso
        simp only [Nat.mul_zero, Nat.zero_add, Nat.mul_add] at below scaled
        omega

/-! ## Keys -/

theorem toList_memberKey (place : Nat) : (memberKey place).toList =
    List.replicate (4 - (Nat.toDigits 10 place).length) '0' ++ Nat.toDigits 10 place := by
  have length : (Nat.toDigits 10 place).length = place.repr.length := by
    rw [← Nat.toList_repr, String.length_toList]
  simp [memberKey, Binary64.zeros, length]

theorem ofDigitChars_memberKey (place : Nat) :
    Nat.ofDigitChars 10 (memberKey place).toList 0 = place := by
  simp [toList_memberKey, Nat.ofDigitChars_append]

theorem memberKey_injective : Function.Injective memberKey := by
  intro place other same
  rw [← ofDigitChars_memberKey place, same, ofDigitChars_memberKey]

theorem isDigit_of_mem_memberKey {place : Nat} :
    ∀ c ∈ (memberKey place).toList, c.isDigit = true := by
  intro c present
  rw [toList_memberKey] at present
  rcases List.mem_append.mp present with zero | digit
  · rw [List.eq_of_mem_replicate zero]
    rfl
  · exact Nat.isDigit_of_mem_toDigits (by decide) (by decide) digit

theorem length_memberKey {place : Nat} (small : place < 10000) :
    (memberKey place).toList.length = 4 := by
  have length := Nat.toDigits_length 10 place 4 (by decide) (by simpa using small)
  simp [toList_memberKey]
  omega

/-- Keys of four digits are sorted as their places are. -/
theorem memberKey_lt {place other : Nat} (below : place < other) (small : other < 10000) :
    memberKey place < memberKey other := by
  refine String.lt_iff_toList_lt.mpr (lt_of_ofDigitChars_lt ?_ isDigit_of_mem_memberKey
    isDigit_of_mem_memberKey ?_)
  · rw [length_memberKey (below.trans small), length_memberKey small]
  · simpa [ofDigitChars_memberKey] using below

/-- From the first key of five digits on, keys no longer follow the places. -/
theorem memberKey_wraps : memberKey 10000 < memberKey 9999 := by
  decide +kernel

/-! ## Containers -/

/-- The keys of a number of members in the order of their places. -/
def memberKeys (count : Nat) : List String := (List.range count).map memberKey

@[simp] theorem length_memberKeys (count : Nat) : (memberKeys count).length = count := by
  simp [memberKeys]

theorem nodup_memberKeys (count : Nat) : (memberKeys count).Nodup :=
  List.nodup_range.map memberKey_injective

theorem memberFields_eq (place : Nat) (members : List Generator) : memberFields place members =
    ((List.range' place members.length).map memberKey).zip members := by
  induction members generalizing place with
  | nil => rfl
  | cons member rest ih => simp [memberFields, List.range'_succ, ih]

@[simp] theorem names_memberFields (members : List Generator) :
    Entries.names (memberFields 0 members) = memberKeys members.length := by
  rw [memberFields_eq, ← List.range_eq_range']
  exact List.map_fst_zip (by simp)

@[simp] theorem values_memberFields (members : List Generator) :
    (memberFields 0 members).map Prod.snd = members := by
  rw [memberFields_eq]
  exact List.map_snd_zip (by simp)

/-- The container of values in declared order, which sorts them by their keys. -/
def memberSlots {α : Type} (values : List α) : Entries α :=
  Entries.ofList ((memberKeys values.length).zip values)

section Slots

variable {α β : Type}

theorem names_keyed (values : List α) :
    Entries.names ((memberKeys values.length).zip values) = memberKeys values.length :=
  List.map_fst_zip (by simp)

theorem sorted_memberSlots (values : List α) : (memberSlots values).Sorted :=
  Entries.sorted_ofList _

theorem memberSlots_perm (values : List α) :
    (memberSlots values).Perm ((memberKeys values.length).zip values) := by
  refine Entries.ofList_perm ?_
  rw [names_keyed]
  exact nodup_memberKeys _

theorem values_memberSlots_perm (values : List α) : (memberSlots values).values.Perm values := by
  have perm := (memberSlots_perm values).map Prod.snd
  rwa [List.map_snd_zip (by simp)] at perm

theorem memberSlots_eq_nil_iff {values : List α} : memberSlots values = [] ↔ values = [] := by
  have length : (memberSlots values).length = values.length := by
    simpa [Entries.values] using (values_memberSlots_perm values).length_eq
  rw [← List.length_eq_zero_iff, length, List.length_eq_zero_iff]

theorem memberSlots_map (f : α → β) (values : List α) : memberSlots (values.map f) =
    (memberSlots values).map fun slot => (slot.1, f slot.2) := by
  rw [memberSlots, memberSlots, Entries.map_ofList, List.length_map, List.zip_map_right]
  rfl

/-- A container of few members keeps them in the order of their places. -/
theorem memberSlots_of_few {values : List α} (few : values.length ≤ 10000) :
    (memberSlots values).values = values := by
  have ascending : (memberKeys values.length).Pairwise (· < ·) := by
    refine List.pairwise_map.mpr (List.pairwise_lt_range.imp_of_mem ?_)
    intro place other _ listed below
    exact memberKey_lt below ((List.mem_range.mp listed).trans_le few)
  rw [← names_keyed] at ascending
  rw [memberSlots, Entries.ofList_of_sorted (List.pairwise_map.mp ascending)]
  exact List.map_snd_zip (by simp)

end Slots

end Compiler

end SchemaSampler
