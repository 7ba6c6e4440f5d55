import SchemaSampler.Proofs.Binary64.Rounding

/-!
# Neighbours of binary64 numbers

Ranks number the values one after the other, with one rank for both zeros. The adjacent number above
has the next rank, also across zero and from the greatest finite number to infinity, so nothing
lies between a number and its neighbour.

Results:
1. `rank_nextUp`, `rank_nextDown`: neighbours are one rank apart.
2. `lt_iff_nextUp_le`, `lt_iff_le_nextDown`: what is above or below a number.
3. `units_max`, `units_min`: extremes of exact values.
-/

namespace SchemaSampler

namespace Binary64

variable {x y z : Binary64}

/-! ## Ranks -/

theorem lt_iff_rank_lt (number : x.isNaN = false) (other : y.isNaN = false) :
    x.lt y = true ↔ x.rank < y.rank := by
  simp [lt, number, other]

theorem le_iff_rank_le (number : x.isNaN = false) (other : y.isNaN = false) :
    x.le y = true ↔ x.rank ≤ y.rank := by
  simp [le, number, other]

theorem le_iff_units_le (number : x.isNaN = false) (other : y.isNaN = false) :
    x.le y = true ↔ x.units ≤ y.units :=
  (le_iff_rank_le number other).trans (units_le_units_iff number other).symm

theorem isNaN_of_le (ordered : x.le y = true) : x.isNaN = false ∧ y.isNaN = false := by
  simp only [le, Bool.and_eq_true, Bool.not_eq_true'] at ordered
  exact ordered.1

/-- A number is finite where its rank is between those of the infinities. -/
theorem isFinite_iff_rank (number : x.isNaN = false) :
    x.isFinite = true ↔ x.rank.natAbs < infiniteMagnitude := by
  cases x with
  | nan => cases number
  | signed negative magnitude bounded => cases negative <;> simp [isFinite, rank]

theorem isFinite_of_between (below : x.le y = true) (above : y.le z = true)
    (least : x.isFinite = true) (greatest : z.isFinite = true) : y.isFinite = true := by
  obtain ⟨first, own⟩ := isNaN_of_le below
  have last := (isNaN_of_le above).2
  rw [le_iff_rank_le first own] at below
  rw [le_iff_rank_le own last] at above
  rw [isFinite_iff_rank first] at least
  rw [isFinite_iff_rank last] at greatest
  rw [isFinite_iff_rank own]
  omega

/-! ## Neighbours -/

theorem isNaN_neg (x : Binary64) : x.neg.isNaN = x.isNaN := by
  cases x <;> rfl

theorem rank_neg (x : Binary64) : x.neg.rank = -x.rank := by
  cases x with
  | nan => rfl
  | signed negative magnitude bounded => cases negative <;> simp [neg, rank]

theorem isNaN_nextUp (number : x.isNaN = false) : x.nextUp.isNaN = false := by
  cases x with
  | nan => cases number
  | signed negative magnitude bounded => cases magnitude <;> cases negative <;> rfl

theorem isNaN_nextDown (number : x.isNaN = false) : x.nextDown.isNaN = false := by
  rw [nextDown, isNaN_neg]
  exact isNaN_nextUp ((isNaN_neg x).trans number)

/-- From a negative number the step up leads to the next lesser magnitude, from any other to the
next greater one. -/
theorem rank_nextUp (finite : x.isFinite = true) : x.nextUp.rank = x.rank + 1 := by
  cases x with
  | nan => cases finite
  | signed negative magnitude bounded =>
    have bound : magnitude < infiniteMagnitude := of_decide_eq_true finite
    cases magnitude with
    | zero => cases negative <;> rfl
    | succ magnitude =>
      cases negative with
      | false =>
        have kept : Min.min (magnitude + 1 + 1) infiniteMagnitude = magnitude + 1 + 1 :=
          Nat.min_eq_left bound
        simp [nextUp, ofMagnitude, rank, kept]
      | true =>
        have kept : Min.min magnitude infiniteMagnitude = magnitude :=
          Nat.min_eq_left (by omega)
        simp only [nextUp, ofMagnitude, rank, kept, if_true]
        omega

theorem rank_nextDown (finite : x.isFinite = true) : x.nextDown.rank = x.rank - 1 := by
  rw [nextDown, rank_neg, rank_nextUp ((isFinite_neg x).trans finite), rank_neg]
  omega

theorem lt_iff_nextUp_le (finite : x.isFinite = true) (number : y.isNaN = false) :
    x.lt y = true ↔ x.nextUp.le y = true := by
  have own := isNaN_of_isFinite finite
  rw [lt_iff_rank_lt own number, le_iff_rank_le (isNaN_nextUp own) number, rank_nextUp finite,
    Int.add_one_le_iff]

theorem lt_iff_le_nextDown (finite : x.isFinite = true) (number : y.isNaN = false) :
    y.lt x = true ↔ y.le x.nextDown = true := by
  have own := isNaN_of_isFinite finite
  rw [lt_iff_rank_lt number own, le_iff_rank_le number (isNaN_nextDown own), rank_nextDown finite,
    Int.le_sub_one_iff]

/-! ## Extremes -/

theorem isNaN_max (number : x.isNaN = false) (other : y.isNaN = false) :
    (x.max y).isNaN = false := by
  rw [max, number, if_neg Bool.false_ne_true]
  split <;> assumption

theorem isNaN_min (number : x.isNaN = false) (other : y.isNaN = false) :
    (x.min y).isNaN = false := by
  rw [min, number, if_neg Bool.false_ne_true]
  split <;> assumption

theorem units_max (number : x.isNaN = false) (other : y.isNaN = false) :
    (x.max y).units = Max.max x.units y.units := by
  have less := lt_iff_units_lt number other
  rw [max, number, if_neg Bool.false_ne_true]
  split
  next below => rw [max_eq_right (less.mp below).le]
  next above => rw [max_eq_left (not_lt.mp fun below => above (less.mpr below))]

theorem units_min (number : x.isNaN = false) (other : y.isNaN = false) :
    (x.min y).units = Min.min x.units y.units := by
  have less := lt_iff_units_lt other number
  rw [min, number, if_neg Bool.false_ne_true]
  split
  next below => rw [min_eq_right (less.mp below).le]
  next above => rw [min_eq_left (not_lt.mp fun below => above (less.mpr below))]

end Binary64

end SchemaSampler
