import Mathlib
import SchemaSampler.Subsets

/-!
# Subsets in binary order

One more item doubles the subsets, as one more binary digit doubles the numbers: the subsets without
the item keep their places, and those with it follow at the places with the new digit set. So the
subset at a place has the items whose digits are set in the place.

Results:
1. `subsets_eq_sublists`: all subsets are the sublists.
2. `getElem?_subsets`: the subset at a place.
3. `existsUnique_place`: each set of distinct items has one place.
4. `subsets_in_binary_order`: how many subsets there are, which ones, and in which order.
-/

namespace SchemaSampler

variable {α : Type} {items : List α} {item : α} {number other : Nat}

/-! ## Subsets as sublists -/

theorem subsets_concat (items : List α) (item : α) :
    subsets (items ++ [item]) =
      subsets items ++ (subsets items).map fun subset => subset ++ [item] := by
  unfold subsets
  rw [List.foldl_append]
  rfl

theorem subsets_eq_sublists (items : List α) : subsets items = items.sublists := by
  -- The subsets grow at the end of the list, so the induction takes the last item off.
  induction items using List.reverseRecOn with
  | nil => rfl
  | append_singleton items item ih => rw [subsets_concat, List.sublists_concat, ih]

theorem mem_subsets {subset : List α} : subset ∈ subsets items ↔ subset.Sublist items := by
  rw [subsets_eq_sublists, List.mem_sublists]

theorem length_subsets (items : List α) : (subsets items).length = 2 ^ items.length := by
  rw [subsets_eq_sublists, List.length_sublists]

/-! ## Items by binary digits -/

/-- The items whose places are set among the binary digits of the number, in their order. -/
def itemsAtBits (number : Nat) (items : List α) : List α :=
  (items.zipIdx.filter fun placed => number.testBit placed.2).map Prod.fst

theorem itemsAtBits_concat (number : Nat) (items : List α) (item : α) :
    itemsAtBits number (items ++ [item]) =
      itemsAtBits number items ++ if number.testBit items.length then [item] else [] := by
  unfold itemsAtBits
  rw [List.zipIdx_append, List.filter_append, List.map_append, Nat.zero_add, List.zipIdx_singleton,
    List.filter_singleton]
  cases number.testBit items.length <;> rfl

/-- Digits beyond the items do not matter. -/
theorem itemsAtBits_congr
    (same : ∀ place < items.length, number.testBit place = other.testBit place) :
    itemsAtBits number items = itemsAtBits other items := by
  refine congrArg (List.map Prod.fst) (List.filter_congr fun placed listed => ?_)
  exact same placed.2 (List.snd_lt_of_mem_zipIdx listed)

theorem mem_itemsAtBits :
    item ∈ itemsAtBits number items ↔
      ∃ place, items[place]? = some item ∧ number.testBit place = true := by
  unfold itemsAtBits
  rw [List.mem_map]
  constructor
  · rintro ⟨⟨_, place⟩, listed, rfl⟩
    obtain ⟨placed, chosen⟩ := List.mem_filter.mp listed
    exact ⟨place, List.mk_mem_zipIdx_iff_getElem?.mp placed, chosen⟩
  · rintro ⟨place, placed, chosen⟩
    exact ⟨(item, place),
      List.mem_filter.mpr ⟨List.mk_mem_zipIdx_iff_getElem?.mpr placed, chosen⟩, rfl⟩

/-- The subset at a place has the items whose digits are set in the place. -/
theorem getElem?_subsets (below : number < 2 ^ items.length) :
    (subsets items)[number]? = some (itemsAtBits number items) := by
  induction items using List.reverseRecOn generalizing number with
  | nil =>
    obtain rfl : number = 0 := Nat.lt_one_iff.mp below
    rfl
  | append_singleton items item ih =>
    have count := length_subsets items
    rw [subsets_concat, itemsAtBits_concat]
    rcases lt_or_ge number (2 ^ items.length) with first | second
    · -- The first half: the digit of the last item is not set.
      rw [List.getElem?_append_left (count ▸ first), ih first, Nat.testBit_lt_two_pow first]
      exact congrArg some (List.append_nil _).symm
    · -- The second half: the digit is set, and the lower ones are those of a place before.
      obtain ⟨rest, rfl⟩ := Nat.exists_eq_add_of_le second
      have lower : rest < 2 ^ items.length := by
        rw [List.length_append, List.length_singleton, Nat.pow_succ] at below
        omega
      have digit : (2 ^ items.length + rest).testBit items.length = true := by
        rw [Nat.testBit_two_pow_add_eq, Nat.testBit_lt_two_pow lower]
        rfl
      have same : itemsAtBits (2 ^ items.length + rest) items = itemsAtBits rest items :=
        itemsAtBits_congr fun place inside => Nat.testBit_two_pow_add_gt inside rest
      rw [List.getElem?_append_right (count ▸ second), count, Nat.add_sub_cancel_left,
        List.getElem?_map, ih lower, digit, same]
      rfl

/-! ## Sets of distinct items -/

section Distinct

variable (distinct : items.Nodup)

include distinct

/-- The digits of the number can be read off the items. -/
theorem getElem_mem_itemsAtBits {place : Nat} (inside : place < items.length) :
    items[place] ∈ itemsAtBits number items ↔ number.testBit place = true := by
  rw [mem_itemsAtBits]
  constructor
  · rintro ⟨same, placed, chosen⟩
    have here : items[place]? = some items[place] := List.getElem?_eq_getElem inside
    rwa [(List.getElem?_inj inside distinct).mp (here.trans placed.symm)]
  · exact fun chosen => ⟨place, List.getElem?_eq_getElem inside, chosen⟩

theorem eq_of_mem_itemsAtBits_iff (below : number < 2 ^ items.length)
    (also : other < 2 ^ items.length)
    (same : ∀ item, item ∈ itemsAtBits number items ↔ item ∈ itemsAtBits other items) :
    number = other := by
  refine Nat.eq_of_testBit_eq fun place => ?_
  rcases lt_or_ge place items.length with inside | beyond
  · have digits := same items[place]
    rw [getElem_mem_itemsAtBits distinct, getElem_mem_itemsAtBits distinct] at digits
    exact Bool.eq_iff_iff.mpr digits
  · have more : 2 ^ items.length ≤ 2 ^ place := Nat.pow_le_pow_right Nat.two_pos beyond
    rw [Nat.testBit_lt_two_pow (below.trans_le more), Nat.testBit_lt_two_pow (also.trans_le more)]

/-- Each set of distinct items is a subset at one place only: the number that has the digits of its
items. -/
theorem existsUnique_place {chosen : Set α} (among : ∀ item ∈ chosen, item ∈ items) :
    ∃! place : Nat, ∃ subset, (subsets items)[place]? = some subset ∧
      ∀ item, item ∈ subset ↔ item ∈ chosen := by
  classical
  let place := Nat.ofBits fun position : Fin items.length => decide (items[position] ∈ chosen)
  have below : place < 2 ^ items.length := Nat.ofBits_lt_two_pow _
  have member : ∀ item, item ∈ itemsAtBits place items ↔ item ∈ chosen := by
    intro item
    have digit : ∀ (position : Nat) (inside : position < items.length),
        items[position] ∈ itemsAtBits place items ↔ items[position] ∈ chosen := by
      intro position inside
      rw [getElem_mem_itemsAtBits distinct, Nat.testBit_ofBits_lt _ position inside]
      exact decide_eq_true_iff
    constructor
    · intro present
      obtain ⟨position, placed, -⟩ := mem_itemsAtBits.mp present
      obtain ⟨inside, rfl⟩ := List.getElem?_eq_some_iff.mp placed
      exact (digit position inside).mp present
    · intro wanted
      obtain ⟨position, inside, rfl⟩ := List.getElem_of_mem (among item wanted)
      exact (digit position inside).mpr wanted
  refine ⟨place, ⟨_, getElem?_subsets below, member⟩, ?_⟩
  rintro further ⟨subset, found, alike⟩
  obtain ⟨inside, -⟩ := List.getElem?_eq_some_iff.mp found
  rw [length_subsets] at inside
  have same : itemsAtBits further items = subset :=
    Option.some.inj ((getElem?_subsets inside).symm.trans found)
  subst same
  exact eq_of_mem_itemsAtBits_iff distinct inside below fun item =>
    (alike item).trans (member item).symm

end Distinct

/-! ## The enumeration -/

/-- There are as many subsets as numbers with a binary digit for each item, and the one at each
place has, in their order, the items whose digits are set in the place. So the empty one comes
first, the subsets are the sublists, and of distinct items each set occurs at one place only. -/
theorem subsets_in_binary_order (items : List α) :
    (subsets items).length = 2 ^ items.length ∧
    (∀ place < 2 ^ items.length, (subsets items)[place]? = some (itemsAtBits place items)) ∧
    (subsets items).head? = some [] ∧
    (∀ subset, subset ∈ subsets items ↔ subset.Sublist items) ∧
    (items.Nodup → ∀ chosen : Set α, (∀ item ∈ chosen, item ∈ items) →
      ∃! place : Nat, ∃ subset, (subsets items)[place]? = some subset ∧
        ∀ item, item ∈ subset ↔ item ∈ chosen) := by
  refine ⟨length_subsets items, fun place below => getElem?_subsets below, ?_,
    fun subset => mem_subsets, fun distinct chosen among => existsUnique_place distinct among⟩
  have none : itemsAtBits 0 items = [] := by
    refine List.eq_nil_iff_forall_not_mem.mpr fun item present => ?_
    obtain ⟨place, -, chosen⟩ := mem_itemsAtBits.mp present
    rw [Nat.zero_testBit] at chosen
    cases chosen
  rw [List.head?_eq_getElem?, getElem?_subsets (Nat.two_pow_pos _), none]

/-- The ends of seventy items, at a place beyond all numbers of sixty-four digits. -/
theorem seventy_in_binary_order :
    (List.range 70).Nodup ∧ 2 ^ 69 + 1 < 2 ^ (List.range 70).length ∧
      (∀ item ∈ ({0, 69} : Set Nat), item ∈ List.range 70) ∧
      (subsets (List.range 70))[2 ^ 69 + 1]? = some [0, 69] ∧
      ∃! place : Nat, ∃ subset, (subsets (List.range 70))[place]? = some subset ∧
        ∀ item, item ∈ subset ↔ item ∈ ({0, 69} : Set Nat) := by
  obtain ⟨-, places, -, -, sets⟩ := subsets_in_binary_order (List.range 70)
  have distinct : (List.range 70).Nodup := List.nodup_range
  have below : 2 ^ 69 + 1 < 2 ^ (List.range 70).length := by decide
  have among : ∀ item ∈ ({0, 69} : Set Nat), item ∈ List.range 70 := by
    rintro item (rfl | rfl) <;> decide
  have ends : itemsAtBits (2 ^ 69 + 1) (List.range 70) = [0, 69] := by decide
  exact ⟨distinct, below, among, ends ▸ places _ below, sets distinct _ among⟩

end SchemaSampler
