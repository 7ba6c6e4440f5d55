import Mathlib
import SchemaSampler.Pattern.Charset

/-!
# Sets of characters as ranges

What a set contains after the operations that build sets, and that no range of them goes past the
last character.

Results:
1. `charAt_charIndex`, `charIndex_charAt`: characters and their numbers.
2. `Charset.contains_union`: what a union contains.
3. `Charset.Bounded`: the operations on sets keep within the characters.
-/

namespace SchemaSampler

/-! ## Characters and their numbers -/

theorem charIndex_le (c : Char) : charIndex c ≤ lastIndex := by
  have valid : c.toNat < 0xD800 ∨ 0xDFFF < c.toNat ∧ c.toNat < 0x110000 := c.valid
  unfold charIndex scalarIndex lastIndex
  split <;> omega

theorem charAt_charIndex (c : Char) : charAt (charIndex c) = c := by
  have valid : c.toNat < 0xD800 ∨ 0xDFFF < c.toNat ∧ c.toNat < 0x110000 := c.valid
  have code : (if charIndex c < 0xD800 then charIndex c else charIndex c + 0x800) = c.toNat := by
    unfold charIndex scalarIndex
    split <;> split <;> omega
  rw [charAt, code, Char.ofNat_toNat]

theorem charIndex_charAt {index : Nat} (bounded : index ≤ lastIndex) :
    charIndex (charAt index) = index := by
  unfold lastIndex at bounded
  unfold charAt charIndex scalarIndex
  split
  next low =>
    have valid : index.isValidChar := .inl low
    rw [Char.toNat_ofNat, if_pos valid]
    split <;> omega
  next high =>
    have valid : (index + 0x800).isValidChar := .inr ⟨by omega, by omega⟩
    rw [Char.toNat_ofNat, if_pos valid]
    split <;> omega

namespace Charset

/-! ## Ranges -/

/-- A number lies in one of the ranges. -/
def Has (ranges : List (Nat × Nat)) (index : Nat) : Prop :=
  ∃ range ∈ ranges, range.1 ≤ index ∧ index ≤ range.2

theorem has_cons {first last index : Nat} {rest : List (Nat × Nat)} :
    Has ((first, last) :: rest) index ↔ first ≤ index ∧ index ≤ last ∨ Has rest index := by
  simp [Has]

theorem has_insertRange (low high index : Nat) (ranges : List (Nat × Nat)) :
    Has (insertRange low high ranges) index ↔ low ≤ index ∧ index ≤ high ∨ Has ranges index := by
  induction ranges generalizing low high with
  | nil => exact has_cons
  | cons range rest ih =>
    obtain ⟨first, last⟩ := range
    rw [insertRange]
    split
    · exact has_cons
    · split
      · rw [has_cons, has_cons, ih]
        tauto
      · -- The ranges touch, so that one range covers both.
        rw [ih, has_cons, ← or_assoc]
        refine or_congr_left ?_
        omega

theorem contains_iff {set : Charset} {c : Char} :
    set.contains c = true ↔ Has set.ranges (charIndex c) := by
  simp [contains, Has]

theorem contains_union {a b : Charset} {c : Char} :
    (a.union b).contains c = true ↔ a.contains c = true ∨ b.contains c = true := by
  rw [contains_iff, contains_iff, contains_iff]
  obtain ⟨ranges⟩ := b
  unfold union
  dsimp only
  generalize a.ranges = all
  induction ranges generalizing all with
  | nil => simp [Has]
  | cons range rest ih =>
    rw [List.foldl_cons, ih, has_insertRange, has_cons]
    tauto

theorem contains_single {c d : Char} : (single c).contains d = true ↔ d = c := by
  rw [contains_iff, single, has_cons]
  constructor
  · rintro (⟨low, high⟩ | ⟨_, absent, _⟩)
    · rw [← charAt_charIndex d, Nat.le_antisymm high low, charAt_charIndex]
    · cases absent
  · rintro rfl
    exact .inl ⟨Nat.le_refl _, Nat.le_refl _⟩

/-! ## Sets within the characters -/

/-- No range goes past the last character. -/
def Within (ranges : List (Nat × Nat)) : Prop :=
  ∀ range ∈ ranges, range.1 ≤ lastIndex ∧ range.2 ≤ lastIndex

def Bounded (set : Charset) : Prop := Within set.ranges

/-- The only character of a set is what the set contains. -/
theorem contains_of_single? {set : Charset} (bounded : set.Bounded) {c d : Char}
    (only : set.single? = some c) : set.contains d = true ↔ d = c := by
  obtain ⟨ranges⟩ := set
  unfold single? at only
  split at only
  next first last same =>
    dsimp only at same
    subst same
    split at only
    next alone =>
      subst alone
      cases only
      have within : first ≤ lastIndex := (bounded (first, first) List.mem_cons_self).1
      rw [contains_iff, has_cons]
      constructor
      · rintro (⟨low, high⟩ | ⟨_, absent, _⟩)
        · rw [← Nat.le_antisymm high low, charAt_charIndex]
        · cases absent
      · rintro rfl
        rw [charIndex_charAt within]
        exact .inl ⟨Nat.le_refl _, Nat.le_refl _⟩
    next => cases only
  next => cases only

theorem within_cons {first last : Nat} {rest : List (Nat × Nat)} :
    Within ((first, last) :: rest) ↔ (first ≤ lastIndex ∧ last ≤ lastIndex) ∧ Within rest :=
  List.forall_mem_cons

theorem bounded_empty : empty.Bounded := nofun

theorem bounded_full : full.Bounded := within_cons.mpr ⟨⟨Nat.zero_le _, Nat.le_refl _⟩, nofun⟩

theorem bounded_single (c : Char) : (single c).Bounded :=
  within_cons.mpr ⟨⟨charIndex_le c, charIndex_le c⟩, nofun⟩

theorem within_insertRange {low high : Nat} (lowWithin : low ≤ lastIndex)
    (highWithin : high ≤ lastIndex) {ranges : List (Nat × Nat)} (within : Within ranges) :
    Within (insertRange low high ranges) := by
  induction ranges generalizing low high with
  | nil => exact within_cons.mpr ⟨⟨lowWithin, highWithin⟩, nofun⟩
  | cons range rest ih =>
    obtain ⟨first, last⟩ := range
    obtain ⟨own, later⟩ := within_cons.mp within
    rw [insertRange]
    split
    · exact within_cons.mpr ⟨⟨lowWithin, highWithin⟩, within⟩
    · split
      · exact within_cons.mpr ⟨own, ih lowWithin highWithin later⟩
      · exact ih (min_le_of_left_le lowWithin) (max_le highWithin own.2) later

theorem Bounded.union {a b : Charset} (left : a.Bounded) (right : b.Bounded) :
    (a.union b).Bounded := by
  obtain ⟨ranges⟩ := b
  obtain ⟨all⟩ := a
  show Within (ranges.foldl _ all)
  replace left : Within all := left
  replace right : Within ranges := right
  induction ranges generalizing all with
  | nil => exact left
  | cons range rest ih =>
    obtain ⟨own, later⟩ := List.forall_mem_cons.mp right
    exact ih _ (within_insertRange own.1 own.2 left) later

theorem bounded_ofRanges {ranges : List (Nat × Nat)} (within : Within ranges) :
    (ofRanges ranges).Bounded := by
  have fold : ∀ all, Within all → Within (ranges.foldl (fun all range =>
      if range.1 ≤ range.2 then insertRange range.1 range.2 all else all) all) := by
    induction ranges with
    | nil => exact fun _ kept => kept
    | cons range rest ih =>
      intro all kept
      obtain ⟨own, later⟩ := List.forall_mem_cons.mp within
      refine ih later _ ?_
      dsimp only
      split
      · exact within_insertRange own.1 own.2 kept
      · exact kept
  exact fold [] nofun

theorem bounded_range (low high : Char) : (range low high).Bounded :=
  bounded_ofRanges (within_cons.mpr ⟨⟨charIndex_le low, charIndex_le high⟩, nofun⟩)

/-- Code points up to the last one make a set within the characters. -/
theorem bounded_ofCodes {ranges : List (Nat × Nat)}
    (within : ∀ range ∈ ranges, range.2 ≤ 0x10FFFF) : (ofCodes ranges).Bounded := by
  refine bounded_ofRanges fun range listed => ?_
  obtain ⟨⟨low, high⟩, source, image⟩ := List.mem_filterMap.mp listed
  have bound : high ≤ 0x10FFFF := within _ source
  have last : (if (0xD800 ≤ high && high < 0xE000) = true then 0xD7FF else scalarIndex high) ≤
      lastIndex := by
    unfold scalarIndex lastIndex
    split
    · omega
    · split <;> omega
  dsimp only at image
  obtain ⟨ordered, same⟩ := Option.ite_none_right_eq_some.mp image
  cases same
  exact ⟨ordered.trans last, last⟩

theorem within_gaps {ranges : List (Nat × Nat)} (within : Within ranges) (start : Nat) :
    Within (gaps start ranges) := by
  induction ranges generalizing start with
  | nil =>
    rw [gaps]
    split
    next ordered => exact within_cons.mpr ⟨⟨ordered, Nat.le_refl _⟩, nofun⟩
    next => exact nofun
  | cons range rest ih =>
    obtain ⟨first, last⟩ := range
    obtain ⟨own, later⟩ := within_cons.mp within
    rw [gaps]
    split
    next before => exact within_cons.mpr ⟨⟨by omega, by omega⟩, ih later _⟩
    next => exact ih later _

theorem Bounded.complement {set : Charset} (bounded : set.Bounded) : set.complement.Bounded :=
  within_gaps bounded 0

theorem Bounded.intersection {a b : Charset} (left : a.Bounded) (right : b.Bounded) :
    (a.intersection b).Bounded :=
  (left.complement.union right.complement).complement

theorem Bounded.difference {a b : Charset} (left : a.Bounded) (right : b.Bounded) :
    (a.difference b).Bounded :=
  left.intersection right.complement

theorem Bounded.symmetricDifference {a b : Charset} (left : a.Bounded) (right : b.Bounded) :
    (a.symmetricDifference b).Bounded :=
  (left.difference right).union (right.difference left)

/-! ## The tables -/

theorem casePairs_within : ∀ row ∈ CharacterTables.casePairs,
    max row.1 row.2.1 + row.2.2.2 ≤ 0x10FFFF := by
  decide +kernel

theorem caseGroups_within : ∀ group ∈ CharacterTables.caseGroups, ∀ code ∈ group,
    code ≤ 0x10FFFF := by
  decide +kernel

theorem bounded_blank : blank.Bounded := bounded_ofCodes (by decide +kernel)

theorem bounded_digit : digit.Bounded := bounded_ofCodes (by decide +kernel)

theorem bounded_word : word.Bounded := bounded_ofCodes (by decide +kernel)

theorem bounded_ascii {name : String} {set : Charset} (found : ascii? name = some set) :
    set.Bounded := by
  unfold ascii? at found
  split at found <;> cases found <;> exact bounded_ofCodes (by decide)

theorem caseVariants_within (low high : Nat) :
    ∀ range ∈ caseVariants low high, range.2 ≤ 0x10FFFF := by
  intro range listed
  rcases List.mem_append.mp listed with pair | group
  · obtain ⟨⟨first, last, step, distance⟩, row, partner⟩ := List.mem_flatMap.mp pair
    have bound := casePairs_within _ (List.mem_of_mem_filter row)
    obtain ⟨code, lesser, single⟩ := List.mem_flatMap.mp partner
    obtain ⟨place, below, rfl⟩ := List.mem_map.mp (List.mem_of_mem_filter lesser)
    have reached : place * step ≤ last - first :=
      (Nat.mul_le_mul_right step (Nat.le_of_lt_succ (List.mem_range.mp below))).trans
        (Nat.div_mul_le_self _ _)
    simp only [singles, List.map_cons, List.map_nil, List.mem_cons, List.not_mem_nil,
      or_false] at single
    dsimp only at bound
    rcases single with rfl | rfl <;> dsimp only <;> omega
  · obtain ⟨codes, kept, single⟩ := List.mem_flatMap.mp group
    obtain ⟨code, own, rfl⟩ := List.mem_map.mp single
    exact caseGroups_within codes (List.mem_of_mem_filter kept) code own

theorem Bounded.foldCase {set : Charset} (bounded : set.Bounded) : set.foldCase.Bounded := by
  refine bounded.union (bounded_ofCodes fun range listed => ?_)
  obtain ⟨_, _, variant⟩ := List.mem_flatMap.mp listed
  exact caseVariants_within _ _ range variant

end Charset

end SchemaSampler
