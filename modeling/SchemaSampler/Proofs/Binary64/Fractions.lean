import SchemaSampler.Proofs.Binary64.Rounding

/-!
# Fractions of binary64 numbers

Truncation, the rounding to the nearest whole number and what truncation drops are exact. Quotients
and products are rounded once, so they are what their exact values are rounded to.

Results:
1. `units_abs_fract`: fractions are remainders.
2. `exists_round`: the nearest whole number.
3. `div_eq_ofUnits`, `mul_eq_ofUnits`: quotients and products of units.
4. `div_beside_one`, `rounds_of_multiple`: quotients beside one, and those of multiples.
-/

namespace SchemaSampler

namespace Binary64

variable {x y : Binary64}

theorem isFinite_abs (x : Binary64) : x.abs.isFinite = x.isFinite := by
  cases x <;> rfl

theorem units_abs (x : Binary64) : x.abs.units = x.absUnits := by
  cases x <;> rfl

theorem isFinite_ofMagnitude {magnitude : Nat} (negative : Bool) :
    (ofMagnitude negative magnitude).isFinite = true ↔ magnitude < infiniteMagnitude := by
  rw [ofMagnitude, isFinite, decide_eq_true_iff]
  omega

theorem absUnits_ofMagnitude {magnitude : Nat} (negative : Bool)
    (bounded : magnitude ≤ infiniteMagnitude) :
    (ofMagnitude negative magnitude).absUnits = unitsOf magnitude := by
  rw [ofMagnitude, absUnits, Nat.min_eq_left bounded]

/-- What is positive has no sign. -/
theorem isNegative_of_not_le_zero (number : x.isNaN = false) (positive : x.le .zero = false) :
    x.isNegative = false := by
  cases x with
  | nan => cases number
  | signed negative magnitude bounded =>
    cases negative with
    | false => rfl
    | true => simp [le, isNaN, rank, zero, ofMagnitude] at positive

/-! ## Fractions -/

/-- A remainder has no more digits than the number. -/
theorem representable_mod {units : Nat} (representable : Representable units) :
    Representable (units % oneUnits) := by
  obtain ⟨magnitude, finite, rfl⟩ := representable
  have exists_smaller : ∃ smaller, unitsOf smaller = unitsOf magnitude % oneUnits := by
    obtain ⟨places, known⟩ : ∃ places, 1074 = places := ⟨1074, rfl⟩
    rw [oneUnits_eq, known]
    rcases magnitude_cases magnitude with subnormal | ⟨exponent, fraction, below, rfl⟩
    · refine ⟨magnitude % 2 ^ places, ?_⟩
      rw [unitsOf_of_lt subnormal, unitsOf_of_lt ((Nat.mod_le _ _).trans_lt subnormal)]
    · rw [unitsOf_normal exponent below]
      by_cases large : places ≤ exponent
      · have whole : 2 ^ places ∣ (leadingBit + fraction) * 2 ^ exponent :=
          Dvd.dvd.mul_left (Nat.pow_dvd_pow 2 large) _
        exact ⟨0, by rw [Nat.mod_eq_zero_of_dvd whole, unitsOf_zero]⟩
      · have unit : 2 ^ places = 2 ^ (places - exponent) * 2 ^ exponent := by
          rw [← Nat.pow_add, Nat.sub_add_cancel (by omega)]
        have short : leadingBit + fraction ≤ 2 ^ 53 := (Nat.add_lt_add_left below leadingBit).le
        rw [unit, Nat.mul_mod_mul_right]
        exact exists_unitsOf_eq exponent ((Nat.mod_le _ _).trans short)
  obtain ⟨smaller, same⟩ := exists_smaller
  have least : smaller ≤ magnitude :=
    unitsOf_strictMono.le_iff_le.mp (same.trans_le (Nat.mod_le _ _))
  exact ⟨smaller, least.trans_lt finite, same⟩

/-- What truncation drops is the remainder, exactly. -/
theorem units_abs_fract (finite : x.isFinite = true) :
    x.fract.abs.isFinite = true ∧ x.fract.abs.units = (x.absUnits % oneUnits : Nat) := by
  obtain ⟨stays, sign, own⟩ := roundWith_exact (fun _ units => units / oneUnits) finite
    fun _ _ => .inr rfl
  have dropped : (x.units + x.trunc.neg.units).natAbs = x.absUnits % oneUnits := by
    have split := Nat.div_add_mod' x.absUnits oneUnits
    have truncated : x.trunc.units = if x.isNegative then -((x.absUnits / oneUnits * oneUnits : Nat)
        : Int) else (x.absUnits / oneUnits * oneUnits : Nat) := units_of_sign sign own
    rw [units_neg, truncated, Binary64.units]
    split <;> omega
  have exact : Representable (x.units + x.trunc.neg.units).natAbs := by
    rw [dropped]
    exact representable_mod (representable_absUnits finite)
  obtain ⟨settled, same⟩ :=
    ofSignedUnits_of_representable (x.isNegative && x.trunc.neg.isNegative) exact
  have difference : x.fract =
      ofSignedUnits (x.isNegative && x.trunc.neg.isNegative) (x.units + x.trunc.neg.units) :=
    add_of_isFinite finite ((isFinite_neg _).trans stays)
  rw [← difference] at settled same
  refine ⟨(isFinite_abs _).trans settled, ?_⟩
  rw [units_abs, ← natAbs_units, same, dropped]

/-! ## Integers -/

theorem ofInt_natCast (n : Nat) : ofInt n = ofUnits false (n * oneUnits) 1 := by
  have sign : decide ((n : Int) < 0) = false := decide_eq_false (Int.natCast_nonneg n).not_gt
  rw [ofInt, sign, Int.natAbs_natCast, ofWhole]

theorem isNegative_ofInt_natCast (n : Nat) : (ofInt n).isNegative = false := by
  rw [ofInt_natCast]
  rfl

theorem ofInt_natCast_exact {n : Nat} (small : n ≤ 2 ^ 53) :
    (ofInt n).isFinite = true ∧ (ofInt n).absUnits = n * oneUnits := by
  rw [ofInt_natCast]
  obtain ⟨finite, -, units⟩ := ofUnits_of_representable false (representable_whole small)
  exact ⟨finite, units⟩

theorem ofInt_eq_ofSignedUnits (n : Int) : ofInt n = ofSignedUnits false (n * oneUnits) := by
  by_cases zero : n = 0
  · subst zero
    decide +kernel
  · have nonzero : n * (oneUnits : Int) ≠ 0 := Int.mul_ne_zero zero oneUnits_pos_int.ne'
    have sign : n * (oneUnits : Int) < 0 ↔ n < 0 := by
      rw [← Int.not_le, ← Int.not_le, Int.mul_nonneg_iff_of_pos_right oneUnits_pos_int]
    rw [ofSignedUnits, if_neg (by simpa using nonzero), ofInt, ofWhole, decide_eq_decide.mpr sign,
      Int.natAbs_mul, Int.natAbs_natCast]

theorem units_ofInt_mono {n m : Int} (ordered : n ≤ m) : (ofInt n).units ≤ (ofInt m).units := by
  rw [ofInt_eq_ofSignedUnits, ofInt_eq_ofSignedUnits]
  exact units_ofSignedUnits_mono _ _ (Int.mul_le_mul_of_nonneg_right ordered oneUnits_pos_int.le)

theorem isFinite_ofInt {n : Int} (small : n.natAbs ≤ 2 ^ 63) : (ofInt n).isFinite = true := by
  have largest : nearestMagnitude (2 ^ 63 * oneUnits) 1 < infiniteMagnitude := by decide +kernel
  have bound := nearestMagnitude_mono (Nat.mul_le_mul_right oneUnits small)
  exact (isFinite_ofMagnitude _).mpr (bound.trans_lt largest)

theorem rounds_ofInt {n num den : Nat} (small : n ≤ 2 ^ 53) (positive : 0 < den) :
    (ofInt n).Rounds num den ↔ unitsOf (nearestMagnitude num den) = n * oneUnits := by
  obtain ⟨own, finite, same⟩ := representable_whole small
  rw [ofInt_natCast, ← same, ofUnits, nearestMagnitude_unitsOf,
    rounds_ofMagnitude false positive finite.le, unitsOf_strictMono.injective.eq_iff]

/-! ## Whole numbers nearby -/

/-- The nearest whole number is the one below or the one above. -/
theorem roundHalfAway_beside (units : Nat) :
    (2 * units + oneUnits) / (2 * oneUnits) = quotientUp units oneUnits ∨
      (2 * units + oneUnits) / (2 * oneUnits) = units / oneUnits := by
  have positive := oneUnits_pos
  have split := Nat.div_add_mod' units oneUnits
  have remainder := Nat.mod_lt units positive
  have doubled (k : Nat) : k * (2 * oneUnits) = 2 * (k * oneUnits) := by ring
  have next (k : Nat) : (k + 1) * oneUnits = k * oneUnits + oneUnits := Nat.add_one_mul k oneUnits
  by_cases half : 2 * (units % oneUnits) < oneUnits
  · refine .inr (Nat.div_eq_of_lt_le ?_ ?_)
    · rw [doubled]
      omega
    · rw [doubled, next]
      omega
  · refine .inl ?_
    have up : quotientUp units oneUnits = units / oneUnits + 1 := by
      refine Nat.div_eq_of_lt_le ?_ ?_
      · rw [next]
        omega
      · rw [next, next]
        omega
    rw [up]
    refine Nat.div_eq_of_lt_le ?_ ?_
    · rw [doubled, next]
      omega
    · rw [doubled, next, next]
      omega

theorem exists_round (finite : x.isFinite = true) (positive : x.isNegative = false) :
    ∃ n : Nat, x.round = ofInt n ∧ x.round.HasValue n ∧
      2 * (n * oneUnits) ≤ 2 * x.absUnits + oneUnits ∧
      2 * x.absUnits < 2 * (n * oneUnits) + oneUnits := by
  obtain ⟨stays, sign, own⟩ :=
    roundWith_exact (fun _ units => (2 * units + oneUnits) / (2 * oneUnits)) finite
      fun _ units => roundHalfAway_beside units
  refine ⟨(2 * x.absUnits + oneUnits) / (2 * oneUnits), ?_, ⟨stays, ?_⟩, ?_⟩
  · cases x with
    | nan => cases finite
    | signed negative magnitude bounded =>
      unfold Binary64.round roundWith
      dsimp only
      rw [if_pos finite, positive, ofInt_natCast, ofWhole]
  · rw [Binary64.round, units_of_sign (sign.trans positive) own, if_neg Bool.false_ne_true,
      Nat.cast_mul]
  · have split := Nat.div_add_mod' (2 * x.absUnits + oneUnits) (2 * oneUnits)
    have remainder := Nat.mod_lt (2 * x.absUnits + oneUnits) (Nat.mul_pos Nat.two_pos oneUnits_pos)
    rw [Nat.mul_left_comm] at split
    omega

theorem round_of_infinite (infinite : x.isFinite = false) : x.round = x := by
  cases x with
  | nan => rfl
  | signed =>
    unfold Binary64.round roundWith
    dsimp only
    rw [infinite, if_neg Bool.false_ne_true]

/-- Infinities have no difference to themselves. -/
theorem sub_self_of_infinite (infinite : x.isFinite = false) : x.sub x = .nan := by
  cases x with
  | nan => rfl
  | signed negative magnitude bounded =>
    have other : (signed (!negative) magnitude bounded).isFinite = false := infinite
    unfold sub neg add
    dsimp only
    rw [infinite, other]
    cases negative <;> rfl

/-! ## Products -/

theorem mul_eq_ofUnits (finite : x.isFinite = true) (other : y.isFinite = true) : x.mul y =
    ofUnits (x.isNegative != y.isNegative) (x.absUnits * y.absUnits) oneUnits := by
  cases x with
  | nan => cases finite
  | signed =>
    cases y with
    | nan => cases other
    | signed =>
      unfold mul
      dsimp only
      rw [finite, other, Bool.and_true, if_pos rfl]

/-- A product by a whole number is the nearest number to a multiple. -/
theorem mul_ofInt_natCast (finite : x.isFinite = true) {n : Nat} (small : n ≤ 2 ^ 53) :
    x.mul (ofInt n) = ofMagnitude x.isNegative (nearestMagnitude (n * x.absUnits) 1) := by
  obtain ⟨other, units⟩ := ofInt_natCast_exact small
  have product : x.absUnits * (n * oneUnits) = n * x.absUnits * oneUnits := by ring
  have unit : nearestMagnitude (n * x.absUnits * oneUnits) (1 * oneUnits) =
      nearestMagnitude (n * x.absUnits) 1 := nearestMagnitude_mul_right Nat.one_pos oneUnits_pos
  rw [Nat.one_mul] at unit
  rw [mul_eq_ofUnits finite other, isNegative_ofInt_natCast, units, product, Bool.bne_false,
    ofUnits, unit]

theorem ofInt_one_mul (finite : x.isFinite = true) : (ofInt 1).mul x = x := by
  cases x with
  | nan => cases finite
  | signed negative magnitude bounded =>
    have units : (ofInt 1).absUnits = oneUnits := by decide +kernel
    have sign : (ofInt 1).isNegative = false := by decide +kernel
    have kept : nearestMagnitude (unitsOf magnitude * oneUnits) (1 * oneUnits) = magnitude := by
      rw [nearestMagnitude_mul_right Nat.one_pos oneUnits_pos, nearestMagnitude_unitsOf]
    rw [Nat.one_mul, Nat.mul_comm] at kept
    rw [mul_eq_ofUnits (by decide +kernel) finite, units, sign, ofUnits, absUnits, kept,
      ofMagnitude]
    simp only [isNegative, Bool.false_bne, Nat.min_eq_left bounded]

/-! ## Quotients -/

theorem div_eq_ofUnits (finite : x.isFinite = true) (other : y.isFinite = true)
    (nonzero : y.absUnits ≠ 0) : x.div y =
      ofUnits (x.isNegative != y.isNegative) (x.absUnits * oneUnits) y.absUnits := by
  cases x with
  | nan => cases finite
  | signed =>
    cases y with
    | nan => cases other
    | signed =>
      unfold div
      dsimp only
      rw [if_pos finite, other, if_neg (by decide), if_neg (by simpa using nonzero)]

/-- A quotient by a number of at least one is finite and lies beside one as the number does beside
the divisor. -/
theorem div_beside_one (finite : x.isFinite = true) (other : y.isFinite = true)
    (positive : y.isNegative = false) (large : oneUnits ≤ y.absUnits) :
    (x.div y).isFinite = true ∧ (x.units ≤ y.units → (x.div y).units ≤ oneUnits) ∧
      (y.units ≤ x.units → oneUnits ≤ (x.div y).units) := by
  have nonzero := oneUnits_pos.trans_le large
  have own : y.units = y.absUnits := units_of_sign positive rfl
  have quotient : x.div y =
      ofMagnitude x.isNegative (nearestMagnitude (x.absUnits * oneUnits) y.absUnits) := by
    rw [div_eq_ofUnits finite other nonzero.ne', positive, Bool.bne_false, ofUnits]
  have bounded : nearestMagnitude (x.absUnits * oneUnits) y.absUnits < infiniteMagnitude := by
    obtain ⟨magnitude, representable, same⟩ := representable_absUnits finite
    refine (nearestMagnitude_le_of_le nonzero ?_).trans_lt representable
    rw [same]
    exact Nat.mul_le_mul_left _ large
  have sign : (x.div y).isNegative = x.isNegative := by
    rw [quotient]
    rfl
  have units : (x.div y).absUnits =
      unitsOf (nearestMagnitude (x.absUnits * oneUnits) y.absUnits) := by
    rw [quotient, absUnits_ofMagnitude _ bounded.le]
  obtain ⟨unit, -, unitUnits⟩ := representable_whole (n := 1) (by decide)
  rw [Nat.one_mul] at unitUnits
  refine ⟨?_, fun below => ?_, fun above => ?_⟩
  · rw [quotient]
    exact (isFinite_ofMagnitude _).mpr bounded
  · rw [units_of_sign sign units]
    split
    next => omega
    next upward =>
      have first : x.units = x.absUnits := units_of_sign (Bool.not_eq_true _ ▸ upward) rfl
      have less : x.absUnits ≤ y.absUnits := by omega
      have least : nearestMagnitude (x.absUnits * oneUnits) y.absUnits ≤ unit := by
        refine nearestMagnitude_le_of_le nonzero ?_
        rw [unitUnits, Nat.mul_comm oneUnits]
        exact Nat.mul_le_mul_right oneUnits less
      exact Int.ofNat_le.mpr ((unitsOf_strictMono.monotone least).trans_eq unitUnits)
  · have upward : x.isNegative = false := by
      by_contra negative
      have first : x.units = -(x.absUnits : Int) :=
        units_of_sign (Bool.not_eq_false _ ▸ negative : x.isNegative = true) rfl
      omega
    have first : x.units = x.absUnits := units_of_sign upward rfl
    have less : y.absUnits ≤ x.absUnits := by omega
    have most : unit ≤ nearestMagnitude (x.absUnits * oneUnits) y.absUnits := by
      refine le_nearestMagnitude_of_le nonzero ?_
      rw [unitUnits, Nat.mul_comm oneUnits]
      exact Nat.mul_le_mul_right oneUnits less
    rw [units_of_sign (sign.trans upward) units, if_neg Bool.false_ne_true]
    exact Int.ofNat_le.mpr (unitUnits.symm.trans_le (unitsOf_strictMono.monotone most))

/-- The quotient of a multiple is the factor. -/
theorem rounds_of_multiple {n step : Nat} (small : n ≤ 2 ^ 53) (positive : 0 < step) :
    (ofInt n).Rounds (n * step * oneUnits) step := by
  obtain ⟨own, -, same⟩ := representable_whole small
  have scaled : n * step * oneUnits = unitsOf own * step := by
    rw [same]
    ring
  have unit : nearestMagnitude (unitsOf own * step) (1 * step) = own := by
    rw [nearestMagnitude_mul_right Nat.one_pos positive, nearestMagnitude_unitsOf]
  rw [Nat.one_mul] at unit
  rw [rounds_ofInt small positive, scaled, unit, same]

/-! ## Numbers beside one -/

theorem ceil_beside_one (finite : x.isFinite = true) : ∃ n : Int, x.ceil.HasValue n ∧
    (x.units ≤ oneUnits → n ≤ 1) ∧ (oneUnits ≤ x.units → 1 ≤ n) := by
  have unit := oneUnits_pos_int
  refine ⟨_, hasValue_ceil finite, fun below => ?_, fun above => ?_⟩
  · have quotient : -1 ≤ -x.units / oneUnits := (Int.le_ediv_iff_mul_le unit).mpr (by omega)
    omega
  · have quotient : -x.units / oneUnits < 0 := (Int.ediv_lt_iff_lt_mul unit).mpr (by omega)
    omega

theorem floor_beside_one (finite : x.isFinite = true) : ∃ n : Int, x.floor.HasValue n ∧
    (x.units ≤ oneUnits → n ≤ 1) ∧ (oneUnits ≤ x.units → 1 ≤ n) := by
  have unit := oneUnits_pos_int
  refine ⟨_, hasValue_floor finite, fun below => ?_, fun above => ?_⟩
  · have quotient : x.units / oneUnits < 2 := (Int.ediv_lt_iff_lt_mul unit).mpr (by omega)
    omega
  · exact (Int.le_ediv_iff_mul_le unit).mpr (by omega)

theorem HasValue.toInt64_beside_one {n : Int} (value : x.HasValue n) :
    (n ≤ 1 → x.toInt64 ≤ 1) ∧ (1 ≤ n → 1 ≤ x.toInt64) := by
  rw [value.toInt64_eq, int64Min, int64Max]
  omega

end Binary64

end SchemaSampler
