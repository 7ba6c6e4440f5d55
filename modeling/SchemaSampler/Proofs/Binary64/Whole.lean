import SchemaSampler.Proofs.Binary64.Order

/-!
# Whole binary64 numbers

Units that some finite number has are rounded to that number, so arithmetic is exact where its
result is representable. Multiples of one are representable up to `2 ^ 53`, and beyond that every
number is a multiple of one; so rounding down and up are exact for all finite numbers.

Results:
1. `nearestMagnitude_unitsOf`: rounding keeps what is representable.
2. `hasValue_floor`, `hasValue_ceil`: the integers next to a number.
3. `HasValue.add`, `HasValue.sub`: sums of integers with at most 53 bits.
4. `HasValue.max`, `HasValue.min`, `HasValue.toInt64_eq`: extremes and whole parts.
5. `isWhole_iff`: whole numbers are those with an integer value.
-/

namespace SchemaSampler

namespace Binary64

variable {x y : Binary64}

/-! ## Representable units -/

theorem roundHalfEven_mul {den : Nat} (positive : 0 < den) (quotient : Nat) :
    roundHalfEven (quotient * den) den = quotient := by
  unfold roundHalfEven
  dsimp only
  rw [Nat.mul_mod_left, Nat.mul_div_cancel _ positive, if_pos (by omega)]

theorem unitsOf_of_lt {magnitude : Nat} (subnormal : magnitude < leadingBit) :
    unitsOf magnitude = magnitude := if_pos subnormal

/-- A significand with its leading bit, shifted by an exponent. -/
theorem unitsOf_normal {fraction : Nat} (exponent : Nat) (below : fraction < leadingBit) :
    unitsOf ((exponent + 1) * leadingBit + fraction) = (leadingBit + fraction) * 2 ^ exponent := by
  have quotient : ((exponent + 1) * leadingBit + fraction) / leadingBit = exponent + 1 := by
    rw [Nat.mul_comm, Nat.mul_add_div (by decide), Nat.div_eq_of_lt below, Nat.add_zero]
  have remainder : ((exponent + 1) * leadingBit + fraction) % leadingBit = fraction := by
    rw [Nat.mul_comm, Nat.mul_add_mod, Nat.mod_eq_of_lt below]
  have normal : ¬ (exponent + 1) * leadingBit + fraction < leadingBit := by
    rw [Nat.add_mul, Nat.one_mul]
    omega
  rw [unitsOf, if_neg normal, quotient, remainder, Nat.add_sub_cancel, Nat.shiftLeft_eq]

/-- Every magnitude is below the leading bit, or has an exponent and a fraction. -/
theorem magnitude_cases (magnitude : Nat) : magnitude < leadingBit ∨
    ∃ exponent fraction, fraction < leadingBit ∧
      magnitude = (exponent + 1) * leadingBit + fraction := by
  by_cases subnormal : magnitude < leadingBit
  · exact .inl subnormal
  · refine .inr ⟨magnitude / leadingBit - 1, magnitude % leadingBit, Nat.mod_lt _ (by decide), ?_⟩
    have positive : 0 < magnitude / leadingBit :=
      Nat.div_pos (Nat.le_of_not_lt subnormal) (by decide)
    rw [Nat.sub_add_cancel positive, Nat.div_add_mod']

/-- A significand of up to 53 bits, shifted by an exponent if it has its leading bit. -/
theorem unitsOf_shifted {significand : Nat} (exponent : Nat) (short : significand ≤ 2 ^ 53)
    (normal : exponent = 0 ∨ leadingBit ≤ significand) :
    unitsOf (exponent * leadingBit + significand) = significand * 2 ^ exponent := by
  by_cases subnormal : significand < leadingBit
  · obtain rfl : exponent = 0 := normal.resolve_right (Nat.not_le_of_lt subnormal)
    rw [Nat.zero_mul, Nat.zero_add, unitsOf_of_lt subnormal, Nat.pow_zero, Nat.mul_one]
  · have least := Nat.le_of_not_lt subnormal
    rcases Nat.lt_or_eq_of_le short with below | rfl
    · have moved : exponent * leadingBit + significand =
          (exponent + 1) * leadingBit + (significand - leadingBit) := by
        rw [Nat.add_mul]
        omega
      rw [moved, unitsOf_normal exponent (by unfold leadingBit at *; omega),
        Nat.add_sub_cancel' least]
    · have moved : exponent * leadingBit + 2 ^ 53 = (exponent + 1 + 1) * leadingBit + 0 := by
        unfold leadingBit
        omega
      rw [moved, unitsOf_normal _ (by decide), Nat.add_zero, Nat.pow_succ', ← Nat.mul_assoc]
      rfl

theorem log2_significand {significand : Nat} (exponent : Nat) (normal : 2 ^ 52 ≤ significand)
    (below : significand < 2 ^ 53) : (significand * 2 ^ exponent).log2 = 52 + exponent := by
  have positive : 0 < 2 ^ exponent := Nat.two_pow_pos exponent
  refine (Nat.log2_eq_iff (Nat.mul_ne_zero (by omega) positive.ne')).mpr ⟨?_, ?_⟩
  · rw [Nat.pow_add]
    exact Nat.mul_le_mul_right _ normal
  · rw [Nat.add_right_comm, Nat.pow_add]
    exact Nat.mul_lt_mul_of_pos_right below positive

/-- Rounding keeps the units of a magnitude. -/
theorem nearestMagnitude_unitsOf (magnitude : Nat) :
    nearestMagnitude (unitsOf magnitude) 1 = magnitude := by
  unfold nearestMagnitude
  dsimp only
  rw [Nat.div_one]
  rcases magnitude_cases magnitude with subnormal | ⟨exponent, fraction, below, rfl⟩
  · have narrow : magnitude.log2 - 52 = 0 := by
      by_cases zero : magnitude = 0
      · rw [zero]
        rfl
      · have := (Nat.log2_lt zero).mpr (show magnitude < 2 ^ 52 from subnormal)
        omega
    rw [unitsOf_of_lt subnormal, narrow, Nat.zero_mul, Nat.zero_add, Nat.shiftLeft_zero]
    simpa using roundHalfEven_mul Nat.one_pos magnitude
  · have least : 2 ^ 52 ≤ leadingBit + fraction := Nat.le_add_right leadingBit fraction
    have most : leadingBit + fraction < 2 ^ 53 := Nat.add_lt_add_left below leadingBit
    have wide : ((leadingBit + fraction) * 2 ^ exponent).log2 - 52 = exponent := by
      rw [log2_significand exponent least most, Nat.add_sub_cancel_left]
    rw [unitsOf_normal exponent below, wide, Nat.shiftLeft_eq, Nat.one_mul,
      roundHalfEven_mul (Nat.two_pow_pos exponent), Nat.add_mul, Nat.one_mul, Nat.add_assoc]

/-! ## Whole numbers -/

theorem oneUnits_eq : oneUnits = 2 ^ 1074 := by
  unfold oneUnits
  generalize 1074 = places
  rw [Nat.shiftLeft_eq, Nat.one_mul]

/-- Some finite number has so many units. -/
def Representable (units : Nat) : Prop :=
  ∃ magnitude, magnitude < infiniteMagnitude ∧ unitsOf magnitude = units

theorem representable_absUnits (finite : x.isFinite = true) : Representable x.absUnits := by
  cases x with
  | nan => cases finite
  | signed negative magnitude bounded => exact ⟨magnitude, of_decide_eq_true finite, rfl⟩

theorem ofUnits_of_representable {units : Nat} (negative : Bool) (exact : Representable units) :
    (ofUnits negative units 1).isFinite = true ∧
      (ofUnits negative units 1).isNegative = negative ∧
      (ofUnits negative units 1).absUnits = units := by
  obtain ⟨magnitude, finite, rfl⟩ := exact
  rw [ofUnits, nearestMagnitude_unitsOf, ofMagnitude]
  have same : Min.min magnitude infiniteMagnitude = magnitude := Nat.min_eq_left finite.le
  refine ⟨?_, rfl, congrArg unitsOf same⟩
  exact decide_eq_true (same.symm ▸ finite)

/-- Shifted significands of up to 53 bits are the units of a magnitude. -/
theorem exists_unitsOf_eq {significand : Nat} (exponent : Nat) (short : significand ≤ 2 ^ 53) :
    ∃ magnitude, unitsOf magnitude = significand * 2 ^ exponent := by
  induction exponent generalizing significand with
  | zero => exact ⟨_, unitsOf_shifted 0 short (.inl rfl)⟩
  | succ exponent ih =>
    by_cases shorter : significand < leadingBit
    · -- A short significand is doubled while the exponent falls.
      rw [Nat.pow_succ', ← Nat.mul_assoc]
      exact ih (by unfold leadingBit at shorter; omega)
    · exact ⟨_, unitsOf_shifted _ short (.inr (Nat.le_of_not_lt shorter))⟩

theorem word_lt_unitsOf_infinite : 2 ^ 63 * oneUnits < unitsOf infiniteMagnitude := by
  decide +kernel

/-- The whole numbers up to `2 ^ 53` are representable. -/
theorem representable_whole {n : Nat} (small : n ≤ 2 ^ 53) : Representable (n * oneUnits) := by
  obtain ⟨magnitude, exact⟩ := exists_unitsOf_eq 1074 small
  rw [← oneUnits_eq] at exact
  refine ⟨magnitude, unitsOf_strictMono.lt_iff_lt.mp ?_, exact⟩
  rw [exact]
  exact Nat.lt_of_le_of_lt (Nat.mul_le_mul_right _ (small.trans (by decide)))
    word_lt_unitsOf_infinite

/-- Numbers with a fractional part are small. -/
theorem dvd_unitsOf_or_lt (magnitude : Nat) :
    oneUnits ∣ unitsOf magnitude ∨ unitsOf magnitude < 2 ^ 52 * oneUnits := by
  obtain ⟨places, known⟩ : ∃ places, 1074 = places + 1 := ⟨1073, rfl⟩
  have unit : oneUnits = 2 ^ (places + 1) := by rw [oneUnits_eq, known]
  rcases magnitude_cases magnitude with subnormal | ⟨exponent, fraction, below, rfl⟩
  · rw [unitsOf_of_lt subnormal]
    exact .inr (Nat.lt_of_lt_of_le subnormal (Nat.le_mul_of_pos_right _ oneUnits_pos))
  · rw [unitsOf_normal exponent below, unit]
    by_cases large : places + 1 ≤ exponent
    · exact .inl (Dvd.dvd.mul_left (Nat.pow_dvd_pow 2 large) _)
    · refine .inr ?_
      calc (leadingBit + fraction) * 2 ^ exponent
          < 2 ^ 53 * 2 ^ exponent :=
            Nat.mul_lt_mul_of_pos_right (Nat.add_lt_add_left below leadingBit) (Nat.two_pow_pos _)
        _ ≤ 2 ^ 53 * 2 ^ places :=
            Nat.mul_le_mul_left _ (Nat.pow_le_pow_right (by decide) (by omega))
        _ = 2 ^ 52 * 2 ^ (places + 1) := by
          rw [← Nat.pow_add, ← Nat.pow_add, Nat.add_left_comm, Nat.add_comm 53]

/-! ## Rounding to whole numbers -/

theorem quotientUp_mul (num : Nat) {den : Nat} (positive : 0 < den) :
    num ≤ quotientUp num den * den ∧ quotientUp num den * den < num + den := by
  have split := Nat.div_add_mod' (num + den - 1) den
  have below := Nat.mod_lt (num + den - 1) positive
  unfold quotientUp
  omega

theorem quotientUp_le (num : Nat) {den : Nat} (positive : 0 < den) :
    quotientUp num den ≤ num / den + 1 := by
  have above := (quotientUp_mul num positive).2
  have split := Nat.lt_div_mul_add positive (a := num)
  have less : quotientUp num den * den < (num / den + 2) * den := by
    rw [Nat.add_mul]
    omega
  exact Nat.le_of_lt_succ (Nat.lt_of_mul_lt_mul_right less)

theorem quotientUp_mul_of_dvd {num den : Nat} (positive : 0 < den) (whole : den ∣ num) :
    quotientUp num den * den = num := by
  obtain ⟨quotient, rfl⟩ := whole
  obtain ⟨least, most⟩ := quotientUp_mul (den * quotient) positive
  rw [Nat.mul_comm _ den] at least most ⊢
  have above : quotient ≤ quotientUp (den * quotient) den :=
    Nat.le_of_mul_le_mul_left least positive
  have below : quotientUp (den * quotient) den < quotient + 1 :=
    Nat.lt_of_mul_lt_mul_left (a := den) (by rwa [Nat.mul_add, Nat.mul_one])
  rw [Nat.le_antisymm (Nat.le_of_lt_succ below) above]

theorem oneUnits_pos_int : (0 : Int) < oneUnits := Int.natCast_pos.mpr oneUnits_pos

/-- Rounding a negative number down is rounding its absolute value up. -/
theorem neg_quotientUp (num : Nat) {den : Nat} (positive : 0 < den) :
    -((quotientUp num den : Nat) : Int) = -(num : Int) / den := by
  obtain ⟨least, most⟩ := quotientUp_mul num positive
  have divisor : (0 : Int) < den := Int.natCast_pos.mpr positive
  refine Int.le_antisymm ((Int.le_ediv_iff_mul_le divisor).mpr ?_)
    (Int.lt_add_one_iff.mp ((Int.ediv_lt_iff_lt_mul divisor).mpr ?_))
  · rw [Int.neg_mul]
    omega
  · rw [Int.add_mul, Int.neg_mul, Int.one_mul]
    omega

/-- Rounding absolute values to a whole number beside them gives that number. -/
theorem roundWith_exact (rounding : Bool → Nat → Nat) (finite : x.isFinite = true)
    (beside : ∀ negative units, rounding negative units = quotientUp units oneUnits ∨
      rounding negative units = units / oneUnits) :
    (roundWith rounding x).isFinite = true ∧
      (roundWith rounding x).isNegative = x.isNegative ∧
      (roundWith rounding x).absUnits = rounding x.isNegative x.absUnits * oneUnits := by
  have exact : Representable (rounding x.isNegative x.absUnits * oneUnits) := by
    cases x with
    | nan => cases finite
    | signed negative magnitude bounded =>
      rcases dvd_unitsOf_or_lt magnitude with whole | small
      · have same : rounding negative (unitsOf magnitude) * oneUnits = unitsOf magnitude := by
          rcases beside negative (unitsOf magnitude) with up | down
          · exact (congrArg (· * oneUnits) up).trans (quotientUp_mul_of_dvd oneUnits_pos whole)
          · exact (congrArg (· * oneUnits) down).trans (Nat.div_mul_cancel whole)
        exact same.symm ▸ representable_absUnits finite
      · have quotient : unitsOf magnitude / oneUnits < 2 ^ 52 := Nat.div_lt_of_lt_mul
          (Nat.mul_comm _ oneUnits ▸ small)
        have next : rounding negative (unitsOf magnitude) ≤ unitsOf magnitude / oneUnits + 1 := by
          rcases beside negative (unitsOf magnitude) with up | down
          · exact up.trans_le (quotientUp_le _ oneUnits_pos)
          · exact down.trans_le (Nat.le_succ _)
        exact representable_whole (next.trans (Nat.succ_le_of_lt (quotient.trans (by decide))))
  cases x with
  | nan => cases finite
  | signed negative magnitude bounded =>
    unfold roundWith
    dsimp only
    rw [if_pos finite]
    exact ofUnits_of_representable _ exact

theorem units_of_sign {negative : Bool} {units : Nat} (sign : x.isNegative = negative)
    (own : x.absUnits = units) : x.units = if negative then -(units : Int) else units := by
  rw [Binary64.units, sign, own]

/-- The number is finite and exactly the integer. -/
def HasValue (x : Binary64) (n : Int) : Prop := x.isFinite = true ∧ x.units = n * oneUnits

/-- Rounding down gives the greatest integer that is at most the number. -/
theorem hasValue_floor (finite : x.isFinite = true) : x.floor.HasValue (x.units / oneUnits) := by
  obtain ⟨stays, sign, own⟩ := roundWith_exact (fun negative units =>
    if negative then quotientUp units oneUnits else units / oneUnits) finite fun negative _ => by
      split
      · exact .inl rfl
      · exact .inr rfl
  refine ⟨stays, (units_of_sign sign own).trans ?_⟩
  unfold Binary64.units
  split
  next => rw [Nat.cast_mul, ← Int.neg_mul, neg_quotientUp _ oneUnits_pos]
  next => rw [Nat.cast_mul, Int.natCast_ediv]

/-- Rounding up gives the least integer that is at least the number. -/
theorem hasValue_ceil (finite : x.isFinite = true) : x.ceil.HasValue (-(-x.units / oneUnits)) := by
  obtain ⟨stays, sign, own⟩ := roundWith_exact (fun negative units =>
    if negative then units / oneUnits else quotientUp units oneUnits) finite fun negative _ => by
      split
      · exact .inr rfl
      · exact .inl rfl
  refine ⟨stays, (units_of_sign sign own).trans ?_⟩
  unfold Binary64.units
  split
  next => rw [Nat.cast_mul, ← Int.neg_mul, Int.neg_neg, Int.natCast_ediv]
  next => rw [Nat.cast_mul, ← neg_quotientUp _ oneUnits_pos, Int.neg_neg]

/-! ## Arithmetic on whole numbers -/

section Values

variable {a b : Int}

theorem hasValue_one : one.HasValue 1 := ⟨by decide +kernel, by decide +kernel⟩

theorem isFinite_neg (x : Binary64) : x.neg.isFinite = x.isFinite := by
  cases x <;> rfl

theorem units_neg (x : Binary64) : x.neg.units = -x.units := by
  cases x with
  | nan => rfl
  | signed negative magnitude bounded =>
    cases negative with
    | false => rfl
    | true => exact (Int.neg_neg _).symm

theorem HasValue.neg (value : x.HasValue a) : x.neg.HasValue (-a) :=
  ⟨(isFinite_neg x).trans value.1, by rw [units_neg, value.2, Int.neg_mul]⟩

theorem add_of_isFinite (finite : x.isFinite = true) (other : y.isFinite = true) :
    x.add y = ofSignedUnits (x.isNegative && y.isNegative) (x.units + y.units) := by
  cases x with
  | nan => cases finite
  | signed =>
    cases y with
    | nan => cases other
    | signed =>
      unfold add
      dsimp only
      rw [if_pos finite, if_pos other]

/-- Units that are representable up to their sign are kept. -/
theorem ofSignedUnits_of_representable (zeroSign : Bool) {units : Int}
    (exact : Representable units.natAbs) :
    (ofSignedUnits zeroSign units).isFinite = true ∧
      (ofSignedUnits zeroSign units).units = units := by
  unfold ofSignedUnits
  split
  next zero =>
    rw [eq_of_beq zero]
    cases zeroSign <;> exact ⟨rfl, rfl⟩
  next =>
    obtain ⟨finite, sign, own⟩ := ofUnits_of_representable (decide (units < 0)) exact
    refine ⟨finite, (units_of_sign sign own).trans ?_⟩
    split
    next below =>
      have below := of_decide_eq_true below
      omega
    next above =>
      have above := of_decide_eq_false (Bool.eq_false_iff.mpr above)
      omega

/-- A sum of integers with at most 53 bits is exact. -/
theorem HasValue.add (value : x.HasValue a) (other : y.HasValue b)
    (small : (a + b).natAbs ≤ 2 ^ 53) : (x.add y).HasValue (a + b) := by
  have sum : x.units + y.units = (a + b) * oneUnits := by
    rw [value.2, other.2, Int.add_mul]
  have exact : Representable (x.units + y.units).natAbs := by
    rw [sum, Int.natAbs_mul, Int.natAbs_natCast]
    exact representable_whole small
  obtain ⟨finite, same⟩ := ofSignedUnits_of_representable (x.isNegative && y.isNegative) exact
  rw [add_of_isFinite value.1 other.1]
  exact ⟨finite, same.trans sum⟩

theorem HasValue.sub (value : x.HasValue a) (other : y.HasValue b)
    (small : (a - b).natAbs ≤ 2 ^ 53) : (x.sub y).HasValue (a - b) :=
  value.add other.neg small

theorem lt_iff_units_lt (number : x.isNaN = false) (other : y.isNaN = false) :
    x.lt y = true ↔ x.units < y.units := by
  rw [← not_le, units_le_units_iff other number, not_le]
  simp [lt, number, other]

theorem HasValue.lt_iff (value : x.HasValue a) (other : y.HasValue b) :
    x.lt y = true ↔ a < b := by
  rw [lt_iff_units_lt (isNaN_of_isFinite value.1) (isNaN_of_isFinite other.1), value.2, other.2]
  exact mul_lt_mul_iff_of_pos_right oneUnits_pos_int

theorem HasValue.max (value : x.HasValue a) (other : y.HasValue b) :
    (x.max y).HasValue (Max.max a b) := by
  rw [Binary64.max, isNaN_of_isFinite value.1, if_neg Bool.false_ne_true]
  split
  next below => rwa [max_eq_right ((value.lt_iff other).mp below).le]
  next above =>
    rwa [max_eq_left (not_lt.mp fun less => above ((value.lt_iff other).mpr less))]

theorem HasValue.min (value : x.HasValue a) (other : y.HasValue b) :
    (x.min y).HasValue (Min.min a b) := by
  rw [Binary64.min, isNaN_of_isFinite value.1, if_neg Bool.false_ne_true]
  split
  next below => rwa [min_eq_right ((other.lt_iff value).mp below).le]
  next above =>
    rwa [min_eq_left (not_lt.mp fun less => above ((other.lt_iff value).mpr less))]

theorem natAbs_units (x : Binary64) : x.units.natAbs = x.absUnits := by
  unfold units
  split <;> omega

theorem isWhole_iff : x.isWhole = true ↔ ∃ n, x.HasValue n := by
  have divides : x.absUnits % oneUnits = 0 ↔ (oneUnits : Int) ∣ x.units := by
    rw [← natAbs_units, ← Nat.dvd_iff_mod_eq_zero, Int.natCast_dvd]
  simp only [isWhole, Bool.and_eq_true, beq_iff_eq, divides, HasValue, exists_and_left]
  refine and_congr_right fun _ => ?_
  rw [dvd_iff_exists_eq_mul_left]

theorem HasValue.abs (value : x.HasValue a) : x.abs.HasValue |a| := by
  obtain ⟨finite, own⟩ := value
  cases x with
  | nan => cases finite
  | signed negative magnitude bounded =>
    refine ⟨finite, ?_⟩
    have positive : (signed negative magnitude bounded).abs.units =
        ((signed negative magnitude bounded).units.natAbs : Int) := by
      rw [natAbs_units]
      rfl
    rw [positive, own, Int.natCast_natAbs, abs_mul, abs_of_pos oneUnits_pos_int]

theorem HasValue.toInt64_eq (value : x.HasValue a) :
    x.toInt64 = Max.max int64Min (Min.min int64Max a) := by
  rw [Binary64.toInt64_eq, value.2, Int.mul_tdiv_cancel _ oneUnits_pos_int.ne']

end Values

end Binary64

end SchemaSampler
