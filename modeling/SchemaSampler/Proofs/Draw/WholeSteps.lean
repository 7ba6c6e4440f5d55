import SchemaSampler.Generator.Multiples
import SchemaSampler.Proofs.Binary64.Fractions
import SchemaSampler.Proofs.Compile.Results

/-!
# Whole steps

An integer schema steps by a whole number near a multiple of its step. The search for it allows the
multiple a relative error of `wholeTolerance`. The check of the step that follows allows the
quotient an absolute error below `epsilon`, which from one on is none: the quotient has to be a
whole number after rounding. So the check passes exactly where the whole step is so near to the
multiple that the quotient is rounded to the scale.

Results:
1. `isMultiple_iff_rounds`: what the check makes of a number near a multiple.
2. `wholeStep_eq_ok`: the search gives the whole number of the first scale that has one.
3. `wholeMultiple?_near`, `wholeMultiple?_eq_none`: that number is near the multiple, and a scale
   whose multiple has none near it is passed over.
-/

namespace SchemaSampler

namespace Binary64

/-! ## Remainders below one -/

/-- The magnitude of one. -/
def oneMagnitude : Nat := 0x3FF0000000000000

theorem unitsOf_oneMagnitude : unitsOf oneMagnitude = oneUnits := by decide +kernel

/-- The number before one is the only one between one less epsilon and one. -/
theorem unitsOf_before_one : unitsOf (oneMagnitude - 2) + epsilon.absUnits = oneUnits := by
  decide +kernel

theorem nextDown_one : one.nextDown = ofMagnitude false (oneMagnitude - 1) := by decide +kernel

theorem units_epsilon : epsilon.units = (epsilon.absUnits : Int) := rfl

theorem units_one_sub_epsilon : (one.sub epsilon).units = (oneUnits : Int) - epsilon.absUnits := by
  decide +kernel

theorem absUnits_epsilon : epsilon.absUnits = 2 ^ 1022 := by decide +kernel

theorem absUnits_epsilon_pos : 0 < epsilon.absUnits := by decide +kernel

/-- From one on, numbers are whole multiples of epsilon. -/
theorem epsilon_dvd_unitsOf {magnitude : Nat} (large : oneMagnitude ≤ magnitude) :
    epsilon.absUnits ∣ unitsOf magnitude := by
  obtain ⟨places, known⟩ : ∃ places, 1022 = places := ⟨1022, rfl⟩
  rw [absUnits_epsilon, known]
  rcases magnitude_cases magnitude with subnormal | ⟨exponent, fraction, below, rfl⟩
  · exact absurd (large.trans_lt subnormal) (by decide)
  · have enough : places ≤ exponent := by
      unfold oneMagnitude leadingBit at *
      omega
    rw [unitsOf_normal exponent below]
    exact Dvd.dvd.mul_left (Nat.pow_dvd_pow 2 enough) _

/-- The remainder is nothing or all of one, but for less than epsilon. -/
def NearWhole (units : Nat) : Prop :=
  units % oneUnits < epsilon.absUnits ∨ oneUnits < units % oneUnits + epsilon.absUnits

/-- A remainder that is a multiple of epsilon is no less than epsilon away from one. -/
theorem nearWhole_iff_dvd {units : Nat} (multiple : epsilon.absUnits ∣ units) :
    NearWhole units ↔ oneUnits ∣ units := by
  have unit : epsilon.absUnits ∣ oneUnits :=
    unitsOf_oneMagnitude ▸ epsilon_dvd_unitsOf (Nat.le_refl _)
  have remainder := Nat.mod_lt units oneUnits_pos
  have gap : units % oneUnits + epsilon.absUnits ≤ oneUnits := by
    have rest : epsilon.absUnits ∣ oneUnits - units % oneUnits :=
      Nat.dvd_sub unit ((Nat.dvd_mod_iff unit).mpr multiple)
    have least := Nat.le_of_dvd (Nat.sub_pos_of_lt remainder) rest
    omega
  rw [NearWhole, or_iff_left (Nat.not_lt_of_le gap), Nat.dvd_iff_mod_eq_zero]
  constructor
  · exact Nat.eq_zero_of_dvd_of_lt ((Nat.dvd_mod_iff unit).mpr multiple)
  · intro none
    rw [none]
    exact absUnits_epsilon_pos

/-- Within half of one around a whole number, only that number is near a whole number, and below
one the number before one. -/
theorem nearWhole_iff {magnitude n : Nat} (positive : 1 ≤ n)
    (above : 2 * (n * oneUnits) ≤ 2 * unitsOf magnitude + oneUnits)
    (below : 2 * unitsOf magnitude ≤ 2 * (n * oneUnits) + oneUnits) :
    NearWhole (unitsOf magnitude) ↔
      unitsOf magnitude = n * oneUnits ∨ n = 1 ∧ magnitude = oneMagnitude - 1 := by
  have some := oneUnits_pos
  by_cases large : oneMagnitude ≤ magnitude
  · have other : ¬ (n = 1 ∧ magnitude = oneMagnitude - 1) := by
      rintro ⟨-, rfl⟩
      exact absurd large (by decide)
    rw [nearWhole_iff_dvd (epsilon_dvd_unitsOf large), or_iff_left other]
    constructor
    · rintro ⟨whole, same⟩
      rw [Nat.mul_comm] at same
      rw [same] at above below ⊢
      have more : n * oneUnits < (whole + 1) * oneUnits := by
        rw [Nat.add_one_mul]
        omega
      have less : whole * oneUnits < (n + 1) * oneUnits := by
        rw [Nat.add_one_mul]
        omega
      have lower := Nat.lt_of_mul_lt_mul_right more
      have upper := Nat.lt_of_mul_lt_mul_right less
      rw [show whole = n by omega]
    · exact fun same => ⟨n, same.trans (Nat.mul_comm _ _)⟩
  · have small : unitsOf magnitude < oneUnits :=
      (unitsOf_strictMono (Nat.lt_of_not_le large)).trans_eq unitsOf_oneMagnitude
    obtain rfl : n = 1 := by
      have bound : n * oneUnits < 2 * oneUnits := by omega
      have less := Nat.lt_of_mul_lt_mul_right bound
      omega
    have least : ¬ unitsOf magnitude < epsilon.absUnits := by
      have tiny : 2 * epsilon.absUnits ≤ oneUnits := by decide +kernel
      omega
    have last : oneUnits < unitsOf magnitude + epsilon.absUnits ↔ oneMagnitude - 2 < magnitude := by
      rw [← unitsOf_before_one, Nat.add_lt_add_iff_right]
      exact unitsOf_strictMono.lt_iff_lt
    rw [NearWhole, Nat.mod_eq_of_lt small, or_iff_right least, last, Nat.one_mul,
      or_iff_right small.ne, and_iff_right rfl]
    unfold oneMagnitude at *
    omega

end Binary64

open Binary64

/-! ## The check of a step -/

/-- The number of units is less than half a step away from a multiple of the step. -/
structure NearMultiple (units step scale : Nat) : Prop where
  above : 2 * (scale * step) < 2 * units + step
  below : 2 * units < 2 * (scale * step) + step

namespace NearMultiple

variable {units step scale : Nat}

theorem step_pos (near : NearMultiple units step scale) : 0 < step := by
  have above := near.above
  have below := near.below
  omega

theorem representable_half {n : Nat} (small : n ≤ 2 ^ 53) :
    ∃ magnitude, magnitude < infiniteMagnitude ∧ 2 * unitsOf magnitude = n * oneUnits := by
  obtain ⟨places, known⟩ : ∃ places, 1074 = places + 1 := ⟨1073, rfl⟩
  obtain ⟨magnitude, same⟩ := exists_unitsOf_eq places small
  have double : 2 * unitsOf magnitude = n * oneUnits := by
    rw [same, oneUnits_eq, known, Nat.pow_succ]
    ring
  refine ⟨magnitude, unitsOf_strictMono.lt_iff_lt.mp ?_, double⟩
  have bound : n * oneUnits ≤ 2 ^ 63 * oneUnits := Nat.mul_le_mul_right _ (small.trans (by decide))
  have infinite := word_lt_unitsOf_infinite
  omega

/-- Near a multiple the rounded quotient is within a half of the scale, because halves are not
rounded. -/
theorem quotient_between (near : NearMultiple units step scale) (positive : 1 ≤ scale)
    (small : scale < 2 ^ 52) :
    nearestMagnitude (units * oneUnits) step < infiniteMagnitude ∧
      2 * (scale * oneUnits) ≤ 2 * unitsOf (nearestMagnitude (units * oneUnits) step) + oneUnits ∧
      2 * unitsOf (nearestMagnitude (units * oneUnits) step) ≤ 2 * (scale * oneUnits) + oneUnits := by
  obtain ⟨lesser, rfl⟩ : ∃ lesser, scale = lesser + 1 := ⟨scale - 1, by omega⟩
  obtain ⟨lower, -, lowerUnits⟩ := representable_half (n := 2 * lesser + 1) (by omega)
  obtain ⟨upper, finite, upperUnits⟩ := representable_half (n := 2 * lesser + 3) (by omega)
  have less : nearestMagnitude (units * oneUnits) step ≤ upper := by
    have below : 2 * units ≤ (2 * lesser + 3) * step := by
      have split : (2 * lesser + 3) * step = 2 * ((lesser + 1) * step) + step := by ring
      exact split ▸ near.below.le
    refine nearestMagnitude_le_of_le near.step_pos (Nat.le_of_mul_le_mul_left ?_ Nat.two_pos)
    calc 2 * (units * oneUnits) = 2 * units * oneUnits := (Nat.mul_assoc _ _ _).symm
      _ ≤ (2 * lesser + 3) * step * oneUnits := Nat.mul_le_mul_right _ below
      _ = (2 * lesser + 3) * oneUnits * step := Nat.mul_right_comm _ _ _
      _ = 2 * (unitsOf upper * step) := by rw [← upperUnits, Nat.mul_assoc]
  have greater : lower ≤ nearestMagnitude (units * oneUnits) step := by
    have above : (2 * lesser + 1) * step ≤ 2 * units := by
      have above := near.above
      have split : 2 * ((lesser + 1) * step) = (2 * lesser + 1) * step + step := by ring
      omega
    refine le_nearestMagnitude_of_le near.step_pos (Nat.le_of_mul_le_mul_left ?_ Nat.two_pos)
    calc 2 * (unitsOf lower * step) = (2 * lesser + 1) * oneUnits * step := by
          rw [← lowerUnits, Nat.mul_assoc]
      _ = (2 * lesser + 1) * step * oneUnits := Nat.mul_right_comm _ _ _
      _ ≤ 2 * units * oneUnits := Nat.mul_le_mul_right _ above
      _ = 2 * (units * oneUnits) := Nat.mul_assoc _ _ _
  have least := unitsOf_strictMono.monotone greater
  have most := unitsOf_strictMono.monotone less
  have lowerHalf : (2 * lesser + 1) * oneUnits + oneUnits = 2 * ((lesser + 1) * oneUnits) := by ring
  have upperHalf : (2 * lesser + 3) * oneUnits = 2 * ((lesser + 1) * oneUnits) + oneUnits := by ring
  exact ⟨less.trans_lt finite, by omega, by omega⟩

end NearMultiple

section Check

variable {value step : Binary64}

/-- The check asks for a quotient near a whole number. -/
theorem isMultiple_iff_nearWhole (finite : (value.div step).isFinite = true) :
    isMultiple value step = true ↔ NearWhole (value.div step).absUnits := by
  obtain ⟨settled, remainder⟩ := units_abs_fract finite
  have number := isNaN_of_isFinite settled
  unfold isMultiple NearWhole
  dsimp only
  rw [Bool.or_eq_true, lt_iff_units_lt number rfl, lt_iff_units_lt (by decide +kernel) number,
    remainder, units_epsilon, units_one_sub_epsilon]
  omega

/-- Near a multiple of the step, the check passes where the quotient is rounded to the scale, and
near the step itself also where it is rounded to the number before one. -/
theorem isMultiple_iff_rounds {scale : Nat} (finite : value.isFinite = true)
    (positive : value.isNegative = false) (other : step.isFinite = true)
    (upward : step.isNegative = false) (near : NearMultiple value.absUnits step.absUnits scale)
    (some : 1 ≤ scale) (small : scale < 2 ^ 52) :
    isMultiple value step = true ↔
      (Binary64.ofInt scale).Rounds (value.absUnits * oneUnits) step.absUnits ∨
      scale = 1 ∧ Binary64.one.nextDown.Rounds (value.absUnits * oneUnits) step.absUnits := by
  obtain ⟨bounded, above, below⟩ := near.quotient_between some small
  have quotient : value.div step =
      ofMagnitude false (nearestMagnitude (value.absUnits * oneUnits) step.absUnits) := by
    rw [div_eq_ofUnits finite other near.step_pos.ne', positive, upward]
    rfl
  have settled : (value.div step).isFinite = true := by
    rw [quotient]
    exact (isFinite_ofMagnitude _).mpr bounded
  rw [isMultiple_iff_nearWhole settled, quotient, absUnits_ofMagnitude _ bounded.le,
    nearWhole_iff some above below, rounds_ofInt (small.le.trans (by decide)) near.step_pos,
    nextDown_one, rounds_ofMagnitude false near.step_pos (by decide)]

end Check

/-! ## The search -/

section Search

variable {step whole : Binary64}

/-- The search ends at the first scale that has a whole number. -/
theorem searchWholeMultiple_eq_some {remaining start : Nat} :
    searchWholeMultiple step remaining start = some whole ↔
      ∃ scale, start ≤ scale ∧ scale < start + remaining ∧
        wholeMultiple? step scale = some whole ∧
        ∀ lesser, start ≤ lesser → lesser < scale → wholeMultiple? step lesser = none := by
  induction remaining generalizing start with
  | zero =>
    refine ⟨fun found => (nomatch found), ?_⟩
    rintro ⟨scale, least, most, -, -⟩
    omega
  | succ remaining ih =>
    rw [searchWholeMultiple]
    cases first : wholeMultiple? step start with
    | some other =>
      constructor
      · rintro ⟨⟩
        exact ⟨start, Nat.le_refl _, by omega, first, fun lesser above below => by omega⟩
      · rintro ⟨scale, least, -, found, before⟩
        rcases Nat.eq_or_lt_of_le least with rfl | less
        · exact first.symm.trans found
        · have none := before start (Nat.le_refl _) less
          rw [first] at none
          cases none
    | none =>
      dsimp only
      rw [ih]
      constructor
      · rintro ⟨scale, least, most, found, before⟩
        refine ⟨scale, by omega, by omega, found, fun lesser above below => ?_⟩
        rcases Nat.eq_or_lt_of_le above with rfl | later
        · exact first
        · exact before lesser later below
      · rintro ⟨scale, least, most, found, before⟩
        refine ⟨scale, Nat.succ_le_of_lt (lt_of_le_of_ne least ?_), by omega, found,
          fun lesser above below => before lesser (by omega) below⟩
        rintro rfl
        rw [first] at found
        cases found

theorem wholeStep_eq_ok : wholeStep step = .ok whole ↔
    checkStep step = .ok () ∧ ∃ scale, 1 ≤ scale ∧ scale ≤ maxStepScale ∧
      wholeMultiple? step scale = some whole ∧
      ∀ lesser, 1 ≤ lesser → lesser < scale → wholeMultiple? step lesser = none := by
  rw [wholeStep, Except.bind_eq_ok]
  constructor
  · rintro ⟨_, passed, found⟩
    cases searched : searchWholeMultiple step maxStepScale 1 with
    | none =>
      rw [searched] at found
      cases found
    | some other =>
      rw [searched] at found
      cases found
      obtain ⟨scale, least, most, rest⟩ := searchWholeMultiple_eq_some.mp searched
      exact ⟨passed, scale, least, by omega, rest⟩
  · rintro ⟨passed, scale, least, most, rest⟩
    have searched : searchWholeMultiple step maxStepScale 1 = some whole :=
      searchWholeMultiple_eq_some.mpr ⟨scale, least, by omega, rest⟩
    exact ⟨(), passed, by rw [searched]; rfl⟩

/-! ## The tolerance -/

theorem absUnits_wholeTolerance_le : wholeTolerance.absUnits * 2 ^ 39 ≤ oneUnits := by
  decide +kernel

/-- Rounding on both sides of the comparison takes two bits of the tolerance at most. -/
theorem difference_le {difference candidate : Nat} (small : difference ≤ oneUnits)
    (within : roundedUnits difference ≤
      unitsOf (nearestMagnitude (candidate * wholeTolerance.absUnits) oneUnits)) :
    difference * 2 ^ 37 ≤ candidate := by
  have bounded : nearestMagnitude difference 1 ≤ infiniteMagnitude := by
    have unit : nearestMagnitude difference 1 ≤ oneMagnitude :=
      nearestMagnitude_le_of_le Nat.one_pos (by rwa [Nat.mul_one, unitsOf_oneMagnitude])
    exact unit.trans (by decide)
  rw [roundedUnits, Nat.min_eq_left bounded] at within
  have halved := le_unitsOf_nearestMagnitude difference
  have doubled := unitsOf_nearestMagnitude_mul_le (candidate * wholeTolerance.absUnits) oneUnits_pos
  have product : difference * oneUnits ≤ 4 * (candidate * wholeTolerance.absUnits) := by
    have scaled := Nat.mul_le_mul_right oneUnits (halved.trans (Nat.mul_le_mul_left 2 within))
    rw [Nat.mul_assoc] at scaled
    omega
  refine Nat.le_of_mul_le_mul_right ?_ oneUnits_pos
  calc difference * 2 ^ 37 * oneUnits = difference * oneUnits * 2 ^ 37 := Nat.mul_right_comm _ _ _
    _ ≤ 4 * (candidate * wholeTolerance.absUnits) * 2 ^ 37 := Nat.mul_le_mul_right _ product
    _ = candidate * (wholeTolerance.absUnits * 2 ^ 39) := by ring
    _ ≤ candidate * oneUnits := Nat.mul_le_mul_left _ absUnits_wholeTolerance_le

/-- The comparison of the search on units. -/
theorem roundedUnits_difference_le {candidate : Binary64} {w : Nat}
    (finite : candidate.isFinite = true) (positive : candidate.isNegative = false)
    (value : whole.HasValue w)
    (within : (candidate.sub whole).abs.le (candidate.mul wholeTolerance) = true) :
    roundedUnits ((candidate.absUnits : Int) - (w * oneUnits : Nat)).natAbs ≤
      unitsOf (nearestMagnitude (candidate.absUnits * wholeTolerance.absUnits) oneUnits) := by
  have ordered := units_le_units within
  have difference : (candidate.sub whole).absUnits =
      roundedUnits ((candidate.absUnits : Int) - (w * oneUnits : Nat)).natAbs := by
    have sum : candidate.units + whole.neg.units =
        (candidate.absUnits : Int) - (w * oneUnits : Nat) := by
      rw [units_of_sign positive rfl, units_neg, value.2]
      push_cast
      rfl
    rw [← natAbs_units, Binary64.sub, add_of_isFinite finite ((isFinite_neg whole).trans value.1),
      sum, units_ofSignedUnits]
    split <;> omega
  have tolerance : (candidate.mul wholeTolerance).units ≤ (unitsOf
      (nearestMagnitude (candidate.absUnits * wholeTolerance.absUnits) oneUnits) : Nat) := by
    rw [mul_eq_ofUnits finite (by decide +kernel), positive]
    exact Int.ofNat_le.mpr (unitsOf_strictMono.monotone (Nat.min_le_left _ _))
  rw [units_abs, difference] at ordered
  exact_mod_cast ordered.trans tolerance

/-- A multiple of the step is rounded to the candidate, the candidate within the tolerance to the
whole number; at the greatest scale both errors stay below half a step. -/
theorem nearMultiple_of_candidate {units candidate step scale : Nat} (small : scale ≤ maxStepScale)
    (large : oneUnits ≤ 2 * candidate)
    (product : candidate = unitsOf (nearestMagnitude (scale * step) 1))
    (close : ((candidate : Int) - units).natAbs * 2 ^ 37 ≤ candidate) :
    NearMultiple units step scale := by
  have normal : leadingBit < nearestMagnitude (scale * step) 1 := by
    have least : 2 * unitsOf leadingBit < oneUnits := by decide +kernel
    refine unitsOf_strictMono.lt_iff_lt.mp ?_
    rw [← product]
    omega
  obtain ⟨upper, lower⟩ := nearestMagnitude_error Nat.one_pos normal
  rw [← product, Nat.mul_one] at upper lower
  have most : scale * step ≤ 10000 * step := Nat.mul_le_mul_right step small
  have some := oneUnits_pos
  unfold leadingBit at upper lower
  constructor <;> omega

/-- An infinite candidate has no whole number beside it. -/
theorem isFinite_of_within {candidate : Binary64}
    (within : (candidate.sub candidate.round).abs.le (candidate.mul wholeTolerance) = true) :
    candidate.isFinite = true := by
  by_contra infinite
  have infinite : candidate.isFinite = false := Bool.not_eq_true _ ▸ infinite
  rw [round_of_infinite infinite, sub_self_of_infinite infinite] at within
  cases within

/-- What the search finds at a scale is within the tolerance of the rounded multiple. -/
theorem wholeMultiple?_close {scale : Nat} (finite : step.isFinite = true)
    (positive : step.isNegative = false) (small : scale ≤ maxStepScale)
    (found : wholeMultiple? step scale = some whole) {candidate : Nat}
    (product : candidate = unitsOf (nearestMagnitude (scale * step.absUnits) 1)) :
    ∃ w : Nat, 1 ≤ w ∧ whole = .ofInt w ∧ whole.HasValue w ∧ oneUnits ≤ 2 * candidate ∧
      ((candidate : Int) - (w * oneUnits : Nat)).natAbs * 2 ^ 37 ≤ candidate := by
  have scaled : step.mul (Binary64.ofInt scale) =
      ofMagnitude false (nearestMagnitude (scale * step.absUnits) 1) := by
    rw [mul_ofInt_natCast finite (small.trans (by decide)), positive]
  unfold wholeMultiple? at found
  dsimp only at found
  rw [scaled] at found
  generalize nearestMagnitude (scale * step.absUnits) 1 = magnitude at found product
  have sign : (ofMagnitude false magnitude).isNegative = false := rfl
  split at found
  next accepted =>
    cases found
    obtain ⟨least, within⟩ := (Bool.and_eq_true _ _).mp accepted
    have candidateFinite := isFinite_of_within within
    have units : (ofMagnitude false magnitude).absUnits = candidate :=
      (absUnits_ofMagnitude false ((isFinite_ofMagnitude false).mp candidateFinite).le).trans
        product.symm
    obtain ⟨w, same, value, below, above⟩ := exists_round candidateFinite sign
    rw [units] at below above
    have half : ((candidate : Int) - (w * oneUnits : Nat)).natAbs ≤ oneUnits := by omega
    have some : oneUnits ≤ w * oneUnits := by
      have ordered := units_le_units least
      rw [value.2, hasValue_one.2, Int.one_mul] at ordered
      exact_mod_cast ordered
    have close := roundedUnits_difference_le candidateFinite sign value within
    rw [units] at close
    exact ⟨w, Nat.pos_of_mul_pos_right (oneUnits_pos.trans_le some), same, value, by omega,
      difference_le half close⟩
  next => cases found

/-- What the search finds at a scale is a whole number near that multiple of the step. -/
theorem wholeMultiple?_near {scale : Nat} (finite : step.isFinite = true)
    (positive : step.isNegative = false) (small : scale ≤ maxStepScale)
    (found : wholeMultiple? step scale = some whole) :
    ∃ w : Nat, 1 ≤ w ∧ whole = .ofInt w ∧ whole.HasValue w ∧
      NearMultiple (w * oneUnits) step.absUnits scale := by
  obtain ⟨w, some, same, value, large, close⟩ :=
    wholeMultiple?_close finite positive small found rfl
  exact ⟨w, some, same, value, nearMultiple_of_candidate small large rfl close⟩

/-- A scale has no whole number if those beside the rounded multiple are beyond the tolerance. -/
theorem wholeMultiple?_eq_none {scale candidate : Nat} (finite : step.isFinite = true)
    (positive : step.isNegative = false) (small : scale ≤ maxStepScale)
    (product : candidate = unitsOf (nearestMagnitude (scale * step.absUnits) 1))
    (below : candidate < candidate % oneUnits * 2 ^ 37)
    (above : candidate < (oneUnits - candidate % oneUnits) * 2 ^ 37) :
    wholeMultiple? step scale = none := by
  cases found : wholeMultiple? step scale with
  | none => rfl
  | some whole =>
    obtain ⟨w, -, -, -, -, close⟩ := wholeMultiple?_close finite positive small found product
    have parts := Nat.div_add_mod' candidate oneUnits
    have inside := Nat.mod_lt candidate oneUnits_pos
    rcases Nat.lt_or_ge (candidate / oneUnits) w with more | most
    · have beyond := Nat.mul_le_mul_right oneUnits more
      rw [Nat.succ_mul] at beyond
      omega
    · have before := Nat.mul_le_mul_right oneUnits most
      omega

end Search

end SchemaSampler
