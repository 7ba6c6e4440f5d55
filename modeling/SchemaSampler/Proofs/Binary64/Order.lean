import Mathlib
import SchemaSampler.Binary64.Arithmetic

/-!
# The order of binary64 numbers

Magnitudes are ordered as the exact values are, so comparing ranks is comparing exact values.
Rounding to whole numbers and division by a positive number give numbers again.

Results:
1. `unitsOf_strictMono`, `units_le_units_iff`: ranks order exact values.
2. `le_of_lt_eq_false`: any two numbers are comparable.
3. `toInt64_le_toInt64`: the clamped whole part keeps the order.
4. `isNaN_div`, `isNaN_floor`, `isNaN_ceil`: results that are numbers.
-/

namespace SchemaSampler

namespace Binary64

variable {x y : Binary64}

/-! ## Exact values -/

/-- The next magnitude has more units, within an exponent and from one exponent to the next. -/
theorem unitsOf_lt_succ (magnitude : Nat) : unitsOf magnitude < unitsOf (magnitude + 1) := by
  by_cases subnormal : magnitude < leadingBit
  · rw [unitsOf, if_pos subnormal, unitsOf]
    split
    next => exact Nat.lt_succ_self _
    next normal =>
      have least : magnitude + 1 = leadingBit := by omega
      rw [least]
      exact subnormal.trans_le (by decide)
  · have exponent : magnitude / leadingBit = magnitude / leadingBit - 1 + 1 := by
      unfold leadingBit at *
      omega
    have below : magnitude % leadingBit < leadingBit := Nat.mod_lt _ (by decide)
    have next : (magnitude + 1) / leadingBit = magnitude / leadingBit ∧
          (magnitude + 1) % leadingBit = magnitude % leadingBit + 1 ∨
        (magnitude + 1) / leadingBit = magnitude / leadingBit + 1 ∧
          (magnitude + 1) % leadingBit = 0 ∧ magnitude % leadingBit + 1 = leadingBit := by
      unfold leadingBit
      omega
    rw [unitsOf, unitsOf, if_neg subnormal, if_neg (by omega), Nat.shiftLeft_eq, Nat.shiftLeft_eq]
    rcases next with ⟨quotient, remainder⟩ | ⟨quotient, remainder, full⟩
    · rw [quotient, remainder]
      exact Nat.mul_lt_mul_of_pos_right (by omega) (Nat.two_pow_pos _)
    · -- A full significand carries into the exponent.
      rw [quotient, remainder, Nat.add_sub_cancel, exponent, Nat.pow_succ, Nat.add_sub_cancel,
        ← Nat.mul_assoc, Nat.mul_right_comm]
      exact Nat.mul_lt_mul_of_pos_right (by omega) (Nat.two_pow_pos _)

theorem unitsOf_strictMono : StrictMono unitsOf := strictMono_nat_of_lt_succ unitsOf_lt_succ

theorem unitsOf_zero : unitsOf 0 = 0 := rfl

/-- Numbers are ordered by their ranks as by their exact values. -/
theorem units_le_units_iff (number : x.isNaN = false) (other : y.isNaN = false) :
    x.units ≤ y.units ↔ x.rank ≤ y.rank := by
  cases x with
  | nan => cases number
  | signed negative magnitude bounded =>
    cases y with
    | nan => cases other
    | signed negative' magnitude' bounded' =>
      have same : unitsOf magnitude ≤ unitsOf magnitude' ↔ magnitude ≤ magnitude' :=
        unitsOf_strictMono.le_iff_le
      have reversed : unitsOf magnitude' ≤ unitsOf magnitude ↔ magnitude' ≤ magnitude :=
        unitsOf_strictMono.le_iff_le
      have zero : unitsOf magnitude ≤ unitsOf 0 ↔ magnitude ≤ 0 := unitsOf_strictMono.le_iff_le
      have zero' : unitsOf magnitude' ≤ unitsOf 0 ↔ magnitude' ≤ 0 := unitsOf_strictMono.le_iff_le
      rw [unitsOf_zero] at zero zero'
      cases negative <;> cases negative' <;>
        simp only [units, rank, isNegative, absUnits, Bool.false_eq_true, if_true, if_false] <;>
        omega

theorem units_le_units (ordered : x.le y = true) : x.units ≤ y.units := by
  simp only [le, Bool.and_eq_true, Bool.not_eq_true', decide_eq_true_eq] at ordered
  exact (units_le_units_iff ordered.1.1 ordered.1.2).mpr ordered.2

/-- Of two numbers the first is above the second or at most it. -/
theorem le_of_lt_eq_false (number : x.isNaN = false) (other : y.isNaN = false)
    (above : y.lt x = false) : x.le y = true := by
  simp only [lt, number, other, Bool.not_false, Bool.true_and, decide_eq_false_iff_not,
    not_lt] at above
  simp only [le, number, other, Bool.not_false, Bool.true_and, decide_eq_true_eq]
  exact above

theorem isNaN_of_isFinite (finite : x.isFinite = true) : x.isNaN = false := by
  cases x with
  | nan => cases finite
  | signed => rfl

/-! ## Whole parts -/

/-- The whole part is what truncation leaves of the exact value. -/
theorem toInt64_eq (x : Binary64) :
    x.toInt64 = Max.max int64Min (Min.min int64Max (x.units.tdiv oneUnits)) := by
  have quotient : ((x.absUnits / oneUnits : Nat) : Int) = (x.absUnits : Int).tdiv oneUnits := rfl
  unfold toInt64 units
  dsimp only
  rw [quotient]
  split
  next => rw [Int.neg_tdiv]
  next => rfl

theorem oneUnits_pos : 0 < oneUnits := by
  unfold oneUnits
  -- The power is too large to be evaluated.
  generalize 1074 = places
  rw [Nat.shiftLeft_eq, Nat.one_mul]
  exact Nat.two_pow_pos places

theorem toInt64_le_toInt64 (ordered : x.le y = true) : x.toInt64 ≤ y.toInt64 := by
  have whole : x.units.tdiv oneUnits ≤ y.units.tdiv oneUnits :=
    Int.tdiv_le_tdiv (Int.natCast_pos.mpr oneUnits_pos) (units_le_units ordered)
  rw [toInt64_eq, toInt64_eq]
  exact max_le_max (le_refl _) (min_le_min (le_refl _) whole)

/-! ## Results that are numbers -/

@[simp] theorem isNaN_ofMagnitude (negative : Bool) (magnitude : Nat) :
    (ofMagnitude negative magnitude).isNaN = false := rfl

theorem isNaN_ofInt (value : Int) : (ofInt value).isNaN = false := by
  rw [ofInt, ofWhole, ofUnits, isNaN_ofMagnitude]

theorem isNaN_roundWith (rounding : Bool → Nat → Nat) :
    (roundWith rounding x).isNaN = x.isNaN := by
  cases x with
  | nan => rfl
  | signed negative magnitude bounded =>
    unfold roundWith
    dsimp only
    split
    · rw [ofWhole, ofUnits, isNaN_ofMagnitude]
      rfl
    · rfl

theorem isNaN_floor (x : Binary64) : x.floor.isNaN = x.isNaN := isNaN_roundWith _

theorem isNaN_ceil (x : Binary64) : x.ceil.isNaN = x.isNaN := isNaN_roundWith _

/-- A positive number has units. -/
theorem absUnits_ne_zero (number : x.isNaN = false) (positive : x.le zero = false) :
    x.absUnits ≠ 0 := by
  cases x with
  | nan => cases number
  | signed negative magnitude bounded =>
    intro none
    have least : magnitude = 0 := by
      have units : unitsOf magnitude = unitsOf 0 := none
      exact unitsOf_strictMono.injective units
    subst least
    cases negative <;> simp [le, isNaN, rank, zero, ofMagnitude] at positive

theorem isNaN_div (number : x.isNaN = false) (finite : y.isFinite = true)
    (nonzero : y.absUnits ≠ 0) : (x.div y).isNaN = false := by
  cases x with
  | nan => cases number
  | signed negative magnitude bounded =>
    cases y with
    | nan => cases finite
    | signed negative' magnitude' bounded' =>
      unfold div
      dsimp only
      rw [finite]
      split
      · rw [if_neg (by decide), if_neg (by simpa using nonzero), ofUnits, isNaN_ofMagnitude]
      · rfl

end Binary64

end SchemaSampler
