import SchemaSampler.Proofs.Binary64.Midpoints

/-!
# Rounding keeps the order

A greater exact value is never rounded to a lesser number, and what is representable stays. So a sum
lies on the same side of any finite number as the exact sum does, or falls on that number.

Results:
1. `nearestMagnitude_mono`: rounding magnitudes keeps the order.
2. `le_units_add`, `units_add_le`: a sum and the numbers at or beside the exact sum.
3. `isFinite_add`: sums that do not overflow.
4. `dvd_units_of_le`: large numbers are whole.
-/

namespace SchemaSampler

namespace Binary64

variable {x y z : Binary64}

/-! ## Magnitudes -/

theorem nearestMagnitude_mono {units larger : Nat} (ordered : units ≤ larger) :
    nearestMagnitude units 1 ≤ nearestMagnitude larger 1 :=
  nearestMagnitude_mono_of_quotient Nat.one_pos Nat.one_pos (Nat.mul_le_mul_right 1 ordered)

/-! ## Signed units -/

/-- The units of the number nearest to a count of units. -/
def roundedUnits (units : Nat) : Nat :=
  unitsOf (Min.min (nearestMagnitude units 1) infiniteMagnitude)

theorem roundedUnits_mono {units larger : Nat} (ordered : units ≤ larger) :
    roundedUnits units ≤ roundedUnits larger :=
  unitsOf_strictMono.monotone (min_le_min_right _ (nearestMagnitude_mono ordered))

theorem roundedUnits_zero : roundedUnits 0 = 0 := by decide +kernel

theorem absUnits_ofUnits (negative : Bool) (units : Nat) :
    (ofUnits negative units 1).absUnits = roundedUnits units := by
  rw [ofUnits, ofMagnitude, absUnits, roundedUnits]

theorem units_ofSignedUnits (zeroSign : Bool) (value : Int) :
    (ofSignedUnits zeroSign value).units =
      if value < 0 then -(roundedUnits value.natAbs : Int) else roundedUnits value.natAbs := by
  unfold ofSignedUnits
  split
  next zero =>
    rw [eq_of_beq zero, Int.natAbs_zero, roundedUnits_zero]
    cases zeroSign <;> rfl
  next =>
    have sign (negative : Bool) : (ofUnits negative value.natAbs 1).isNegative = negative := rfl
    rw [units_of_sign (sign _) (absUnits_ofUnits _ _)]
    simp only [decide_eq_true_eq]

theorem units_ofSignedUnits_neg (zeroSign otherSign : Bool) (value : Int) :
    (ofSignedUnits zeroSign (-value)).units = -(ofSignedUnits otherSign value).units := by
  rw [units_ofSignedUnits, units_ofSignedUnits, Int.natAbs_neg]
  rcases lt_trichotomy value 0 with below | rfl | above
  · rw [if_neg (by omega), if_pos below, Int.neg_neg]
  · rfl
  · rw [if_pos (by omega), if_neg (by omega)]

theorem units_ofSignedUnits_mono (zeroSign otherSign : Bool) {value larger : Int}
    (ordered : value ≤ larger) :
    (ofSignedUnits zeroSign value).units ≤ (ofSignedUnits otherSign larger).units := by
  rw [units_ofSignedUnits, units_ofSignedUnits]
  split
  next negative =>
    split
    next =>
      have reversed : roundedUnits larger.natAbs ≤ roundedUnits value.natAbs :=
        roundedUnits_mono (by omega)
      omega
    next => omega
  next positive =>
    rw [if_neg (by omega)]
    have same : roundedUnits value.natAbs ≤ roundedUnits larger.natAbs :=
      roundedUnits_mono (by omega)
    omega

/-! ## Sums -/

theorem units_ofSignedUnits_units (finite : z.isFinite = true) (zeroSign : Bool) :
    (ofSignedUnits zeroSign z.units).units = z.units := by
  refine (ofSignedUnits_of_representable zeroSign ?_).2
  rw [natAbs_units]
  exact representable_absUnits finite

theorem le_units_add (finite : x.isFinite = true) (other : y.isFinite = true)
    (bound : z.isFinite = true) (below : z.units ≤ x.units + y.units) :
    z.units ≤ (x.add y).units := by
  rw [add_of_isFinite finite other, ← units_ofSignedUnits_units bound false]
  exact units_ofSignedUnits_mono _ _ below

theorem units_add_le (finite : x.isFinite = true) (other : y.isFinite = true)
    (bound : z.isFinite = true) (above : x.units + y.units ≤ z.units) :
    (x.add y).units ≤ z.units := by
  rw [add_of_isFinite finite other, ← units_ofSignedUnits_units bound false]
  exact units_ofSignedUnits_mono _ _ above

/-- Rounding is the same on both sides of zero. -/
theorem units_add_neg (finite : x.isFinite = true) (other : y.isFinite = true)
    {a b : Binary64} (first : a.isFinite = true) (second : b.isFinite = true)
    (opposite : a.units = -x.units) (opposed : b.units = -y.units) :
    (a.add b).units = -(x.add y).units := by
  have sum : a.units + b.units = -(x.units + y.units) := by
    rw [opposite, opposed, Int.neg_add]
  rw [add_of_isFinite finite other, add_of_isFinite first second, sum]
  exact units_ofSignedUnits_neg _ _ _

/-- The greatest finite number in units. -/
def greatestUnits : Nat := unitsOf (infiniteMagnitude - 1)

theorem absUnits_le_greatestUnits (finite : x.isFinite = true) : x.absUnits ≤ greatestUnits := by
  cases x with
  | nan => cases finite
  | signed negative magnitude bounded =>
    exact unitsOf_strictMono.monotone (Nat.le_sub_one_of_lt (of_decide_eq_true finite))

/-- One more than the greatest finite number is still rounded to it. -/
theorem nearestMagnitude_greatest :
    nearestMagnitude (greatestUnits + oneUnits) 1 < infiniteMagnitude := by
  decide +kernel

theorem isFinite_add (finite : x.isFinite = true) (other : y.isFinite = true)
    (small : (x.units + y.units).natAbs ≤ greatestUnits + oneUnits) :
    (x.add y).isFinite = true := by
  rw [add_of_isFinite finite other]
  unfold ofSignedUnits
  split
  · rfl
  · have bound := (nearestMagnitude_mono small).trans_lt nearestMagnitude_greatest
    refine decide_eq_true ?_
    exact (Nat.min_le_left _ _).trans_lt bound

/-! ## Large numbers -/

/-- Numbers from `2 ^ 52` on are whole. -/
theorem dvd_units_of_le (large : 2 ^ 52 * oneUnits ≤ x.absUnits) : (oneUnits : Int) ∣ x.units := by
  have whole : oneUnits ∣ x.absUnits := by
    cases x with
    | nan => exact Nat.dvd_zero _
    | signed negative magnitude bounded =>
      exact (dvd_unitsOf_or_lt magnitude).resolve_right (Nat.not_lt.mpr large)
  rw [← natAbs_units] at whole
  exact Int.natCast_dvd.mpr whole

end Binary64

end SchemaSampler
