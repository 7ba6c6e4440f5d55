import SchemaSampler.Proofs.Binary64.Neighbours
import SchemaSampler.Proofs.Ranges.Integers

/-!
# Integer ranges of large bounds

An exclusive bound of an integer node is moved to the next whole number by a sum of floats, and the
ends of the range are clamped to 64-bit integers. From `2 ^ 53` on the sum may be rounded back to the
bound, and a bound beyond the 64-bit integers is lost in the clamp. Everywhere else the integers of a
range meet all bounds.

Results:
1. `exists_wholeAbove`, `exists_wholeBelow`: a moved bound is a whole number on the right side.
2. `meetsLower_clamped_iff`, `meetsUpper_clamped_iff`: when the ends of a range meet its bounds.
3. `integerRange_admits_iff`: when all integers of a range meet the bounds.
4. `absorbed_limit_admitted`: a range that holds its own exclusive bound.
-/

namespace SchemaSampler

open Binary64

namespace NumericBounds

/-! ## Moved bounds -/

section Moved

variable {x : Binary64}

/-- The number `2 ^ 53`, from which on sums with one are rounded. -/
def wholeLimit : Binary64 := .ofMagnitude false 0x4340000000000000

theorem hasValue_wholeLimit : wholeLimit.HasValue (2 ^ 53) := ⟨by decide +kernel, by decide +kernel⟩

/-- The sum of an integer and one is an integer, also where it is rounded. -/
theorem exists_hasValue_add {y : Binary64} {a b : Int} (value : x.HasValue a) (other : y.HasValue b)
    (unit : b.natAbs = 1) : ∃ n, (x.add y).HasValue n := by
  have small : (x.units + y.units).natAbs ≤ greatestUnits + oneUnits := by
    have own := absUnits_le_greatestUnits value.1
    have next : y.units.natAbs = oneUnits := by
      rw [other.2, Int.natAbs_mul, unit, Nat.one_mul, Int.natAbs_natCast]
    rw [← natAbs_units] at own
    omega
  have finite := isFinite_add value.1 other.1 small
  by_cases exact : (a + b).natAbs ≤ 2 ^ 53
  · exact ⟨a + b, value.add other exact⟩
  · -- The sum is too large for a fractional part.
    have sum : x.units + y.units = (a + b) * oneUnits := by
      rw [value.2, other.2, Int.add_mul]
    have limit := hasValue_wholeLimit
    have large : 2 ^ 52 * oneUnits ≤ (x.add y).absUnits := by
      rw [← natAbs_units]
      rcases lt_or_ge 0 (a + b) with positive | negative
      · have above : (2 ^ 53 : Int) * oneUnits ≤ (a + b) * oneUnits :=
          Int.mul_le_mul_of_nonneg_right (by omega) oneUnits_pos_int.le
        have bound := le_units_add value.1 other.1 limit.1 (by rw [limit.2, sum]; exact above)
        rw [limit.2] at bound
        omega
      · have below : (a + b) * oneUnits ≤ -(2 ^ 53 : Int) * oneUnits :=
          Int.mul_le_mul_of_nonneg_right (by omega) oneUnits_pos_int.le
        have bound := units_add_le value.1 other.1 limit.neg.1
          (by rw [limit.neg.2, sum]; exact below)
        rw [limit.neg.2] at bound
        omega
    obtain ⟨n, own⟩ := dvd_iff_exists_eq_mul_left.mp (dvd_units_of_le large)
    exact ⟨n, finite, own⟩

/-- The whole number above a bound is at least its floor, and above it within `2 ^ 53`. -/
theorem exists_wholeAbove (finite : x.isFinite = true) :
    ∃ n, (wholeAbove x).HasValue n ∧ x.units / oneUnits ≤ n ∧
      ((x.units / oneUnits + 1).natAbs ≤ 2 ^ 53 → n = x.units / oneUnits + 1) := by
  have floor := hasValue_floor finite
  obtain ⟨n, value⟩ := exists_hasValue_add floor hasValue_one rfl
  refine ⟨n, value, ?_, fun small => ?_⟩
  · have grown := le_units_add floor.1 hasValue_one.1 floor.1
      (by rw [hasValue_one.2, Int.one_mul]; omega)
    rw [floor.2, value.2] at grown
    exact Int.le_of_mul_le_mul_right grown oneUnits_pos_int
  · have exact := (floor.add hasValue_one small).2
    rw [value.2] at exact
    exact Int.eq_of_mul_eq_mul_right oneUnits_pos_int.ne' exact

/-- A bound that stays where it is when it is moved is an integer. -/
theorem dvd_units_of_absorbed_above (finite : x.isFinite = true)
    (absorbed : (wholeAbove x).units ≤ x.units) : (oneUnits : Int) ∣ x.units := by
  obtain ⟨n, value, -, exact⟩ := exists_wholeAbove finite
  by_cases small : (x.units / oneUnits + 1).natAbs ≤ 2 ^ 53
  · have next := Int.lt_ediv_add_one_mul_self x.units oneUnits_pos_int
    rw [value.2, exact small] at absorbed
    omega
  · refine dvd_units_of_le ?_
    rw [← natAbs_units]
    have above := Int.ediv_mul_le x.units oneUnits_pos_int.ne'
    have below := Int.lt_ediv_add_one_mul_self x.units oneUnits_pos_int
    rcases lt_or_ge 0 (x.units / oneUnits + 1) with positive | negative
    · have large : (2 ^ 52 : Int) * oneUnits ≤ x.units / oneUnits * oneUnits :=
        Int.mul_le_mul_of_nonneg_right (by omega) oneUnits_pos_int.le
      omega
    · have large : (x.units / oneUnits + 1) * oneUnits ≤ -(2 ^ 52 : Int) * oneUnits :=
        Int.mul_le_mul_of_nonneg_right (by omega) oneUnits_pos_int.le
      omega

theorem moved_above_of_small (finite : x.isFinite = true) (small : x.absUnits < 2 ^ 53 * oneUnits) :
    x.units < (wholeAbove x).units := by
  obtain ⟨n, value, -, exact⟩ := exists_wholeAbove finite
  rw [← natAbs_units] at small
  have least : -(2 ^ 53 : Int) ≤ x.units / oneUnits :=
    (Int.le_ediv_iff_mul_le oneUnits_pos_int).mpr (by omega)
  have most : x.units / oneUnits < 2 ^ 53 :=
    (Int.ediv_lt_iff_lt_mul oneUnits_pos_int).mpr (by omega)
  rw [value.2, exact (by omega)]
  exact Int.lt_ediv_add_one_mul_self x.units oneUnits_pos_int

/-! Below a bound is above its opposite. -/

theorem units_wholeBelow (finite : x.isFinite = true) :
    (wholeBelow x).units = -(wholeAbove x.neg).units := by
  have ceil := hasValue_ceil finite
  have floor := hasValue_floor ((isFinite_neg x).trans finite)
  refine units_add_neg floor.1 hasValue_one.1 ceil.1 hasValue_one.neg.1 ?_ (units_neg one)
  rw [ceil.2, floor.2, units_neg, Int.neg_mul]

theorem exists_wholeBelow (finite : x.isFinite = true) :
    ∃ n, (wholeBelow x).HasValue n ∧ n ≤ -(-x.units / oneUnits) := by
  have other := (isFinite_neg x).trans finite
  obtain ⟨n, value, least, -⟩ := exists_wholeAbove other
  obtain ⟨m, own⟩ := exists_hasValue_add (hasValue_ceil finite) hasValue_one.neg rfl
  have same : m * oneUnits = -n * oneUnits := by
    rw [← own.2, Int.neg_mul, ← value.2]
    exact units_wholeBelow finite
  obtain rfl := Int.eq_of_mul_eq_mul_right oneUnits_pos_int.ne' same
  rw [units_neg] at least
  exact ⟨-n, own, Int.neg_le_neg least⟩

theorem dvd_units_of_absorbed_below (finite : x.isFinite = true)
    (absorbed : x.units ≤ (wholeBelow x).units) : (oneUnits : Int) ∣ x.units := by
  rw [units_wholeBelow finite] at absorbed
  have whole := dvd_units_of_absorbed_above ((isFinite_neg x).trans finite)
    (by rw [units_neg]; omega)
  rwa [units_neg, Int.dvd_neg] at whole

theorem moved_below_of_small (finite : x.isFinite = true) (small : x.absUnits < 2 ^ 53 * oneUnits) :
    (wholeBelow x).units < x.units := by
  have moved := moved_above_of_small ((isFinite_neg x).trans finite)
    (by rwa [← natAbs_units, units_neg, Int.natAbs_neg, natAbs_units])
  rw [units_wholeBelow finite]
  rw [units_neg] at moved
  omega

end Moved

/-! ## Clamped ends -/

section Clamped

variable {x : Binary64}

/-- The end of a range in units is that of its side, clamped. -/
theorem units_toInt64 {n : Int} (value : x.HasValue n) :
    x.toInt64 * oneUnits =
      Max.max (int64Min * oneUnits) (Min.min (int64Max * oneUnits) x.units) := by
  have positive := oneUnits_pos_int.le
  rw [value.toInt64_eq, value.2, max_mul_of_nonneg _ _ positive, min_mul_of_nonneg _ _ positive]

/-- When the lower end of a range meets the lower bounds: an inclusive bound must not lie above the
64-bit integers, and an exclusive one must be moved, or lie below the inclusive bound or all 64-bit
integers. -/
def LowerReached (bounds : NumericBounds) : Prop :=
  MeetsSide bounds.minimum bounds.exclusiveMinimum (fun bound => bound.units ≤ int64Max * oneUnits)
    fun limit => limit.units < int64Min * oneUnits ∨ limit.units < int64Max * oneUnits ∧
      (limit.units < (wholeAbove limit).units ∨
        ∃ bound, bounds.minimum = some bound ∧ limit.units < bound.units)

def UpperReached (bounds : NumericBounds) : Prop :=
  MeetsSide bounds.maximum bounds.exclusiveMaximum (fun bound => int64Min * oneUnits ≤ bound.units)
    fun limit => int64Max * oneUnits < limit.units ∨ int64Min * oneUnits < limit.units ∧
      ((wholeBelow limit).units < limit.units ∨
        ∃ bound, bounds.maximum = some bound ∧ bound.units < limit.units)

variable {bounds : NumericBounds} {l : Int}

theorem int64_ordered : int64Min * (oneUnits : Int) ≤ int64Max * oneUnits :=
  Int.mul_le_mul_of_nonneg_right (by decide) oneUnits_pos_int.le

theorem units_le_ceil (finite : x.isFinite = true) : x.units ≤ x.ceil.units := by
  have bound := Int.ediv_mul_le (-x.units) oneUnits_pos_int.ne'
  rw [(hasValue_ceil finite).2, Int.neg_mul]
  omega

theorem floor_le_units (finite : x.isFinite = true) : x.floor.units ≤ x.units := by
  rw [(hasValue_floor finite).2]
  exact Int.ediv_mul_le x.units oneUnits_pos_int.ne'

/-- An integer is below a number as it is below the number rounded up. -/
theorem lt_ceil_iff_of_dvd (finite : x.isFinite = true) (whole : (oneUnits : Int) ∣ l) :
    l < x.ceil.units ↔ l < x.units := by
  obtain ⟨k, rfl⟩ := dvd_iff_exists_eq_mul_left.mp whole
  rw [(hasValue_ceil finite).2, Int.mul_lt_mul_right oneUnits_pos_int, lt_neg,
    Int.ediv_lt_iff_lt_mul oneUnits_pos_int, Int.neg_mul, neg_lt_neg_iff]

theorem floor_lt_iff_of_dvd (finite : x.isFinite = true) (whole : (oneUnits : Int) ∣ l) :
    x.floor.units < l ↔ x.units < l := by
  obtain ⟨k, rfl⟩ := dvd_iff_exists_eq_mul_left.mp whole
  rw [(hasValue_floor finite).2, Int.mul_lt_mul_right oneUnits_pos_int,
    Int.ediv_lt_iff_lt_mul oneUnits_pos_int]

/-- How a side comes about: from a weak bound, a strict one, or both. -/
theorem side_cases {base : Option Binary64} {exclusive : Option ExclusiveBound}
    {weak strict : Binary64 → Binary64} {narrower : Binary64 → Binary64 → Binary64}
    (given : side base exclusive weak strict narrower = some x) :
    (∃ bound, base = some bound ∧ (exclusive = none ∨ exclusive = some (.flag false)) ∧
      x = weak bound) ∨
    (∃ bound, base = some bound ∧ exclusive = some (.flag true) ∧ x = strict bound) ∨
    (∃ limit, base = none ∧ exclusive = some (.limit limit) ∧ x = strict limit) ∨
    ∃ bound limit, base = some bound ∧ exclusive = some (.limit limit) ∧
      x = narrower (weak bound) (strict limit) := by
  rcases base with _ | bound <;> rcases exclusive with _ | (_ | _) | limit <;> cases given
  · exact .inr (.inr (.inl ⟨limit, rfl, rfl, rfl⟩))
  · exact .inl ⟨bound, rfl, .inl rfl, rfl⟩
  · exact .inl ⟨bound, rfl, .inr rfl, rfl⟩
  · exact .inr (.inl ⟨bound, rfl, rfl, rfl⟩)
  · exact .inr (.inr (.inr ⟨bound, limit, rfl, rfl, rfl⟩))

section Demands

variable {base : Option Binary64} {exclusive : Option ExclusiveBound} {bound limit : Binary64}
  {weakly strictly : Binary64 → Prop}

theorem meetsSide_weak (given : base = some bound)
    (weak : exclusive = none ∨ exclusive = some (.flag false)) :
    MeetsSide base exclusive weakly strictly ↔ weakly bound := by
  subst given
  rcases weak with rfl | rfl <;> simp [meetsSide_iff]

theorem meetsSide_flagged (given : base = some bound) (flagged : exclusive = some (.flag true)) :
    MeetsSide base exclusive weakly strictly ↔ weakly bound ∧ strictly bound := by
  subst given flagged
  simp [meetsSide_iff]

theorem meetsSide_limited (none : base = none) (limited : exclusive = some (.limit limit)) :
    MeetsSide base exclusive weakly strictly ↔ strictly limit := by
  subst none limited
  simp [meetsSide_iff]

theorem meetsSide_both (given : base = some bound) (limited : exclusive = some (.limit limit)) :
    MeetsSide base exclusive weakly strictly ↔ weakly bound ∧ strictly limit := by
  subst given limited
  simp [meetsSide_iff]

end Demands

/-- The lower end of a range meets the lower bounds where they are reached. -/
theorem meetsLower_clamped_iff (finite : ∀ bound, bounds.Declares bound → bound.isFinite = true)
    (given : bounds.lowerEnd = some x) :
    bounds.MeetsLower (x.toInt64 * oneUnits) ↔ bounds.LowerReached := by
  have ordered := int64_ordered
  unfold MeetsLower LowerReached
  rcases side_cases given with ⟨bound, base, weak, rfl⟩ | ⟨bound, base, flagged, rfl⟩ |
    ⟨limit, base, limited, rfl⟩ | ⟨bound, limit, base, limited, rfl⟩
  · have own := finite bound (.inl base)
    have least := units_le_ceil own
    rw [meetsSide_weak base weak, meetsSide_weak base weak, units_toInt64 (hasValue_ceil own)]
    omega
  · obtain ⟨n, value, -⟩ := exists_wholeAbove (finite bound (.inl base))
    rw [meetsSide_flagged base flagged, meetsSide_flagged base flagged, units_toInt64 value]
    simp only [base, Option.some.injEq, exists_eq_left']
    omega
  · obtain ⟨n, value, -⟩ := exists_wholeAbove (finite limit (.inr (.inl limited)))
    rw [meetsSide_limited base limited, meetsSide_limited base limited, units_toInt64 value]
    simp only [base, reduceCtorEq, false_and, exists_false, or_false]
    omega
  · have own := finite bound (.inl base)
    have least := units_le_ceil own
    have ceil := hasValue_ceil own
    have strict := finite limit (.inr (.inl limited))
    obtain ⟨n, value, -⟩ := exists_wholeAbove strict
    have greater := units_max (isNaN_of_isFinite ceil.1) (isNaN_of_isFinite value.1)
    have above : limit.units < bound.ceil.units ∨ limit.units < (wholeAbove limit).units ↔
        limit.units < (wholeAbove limit).units ∨ limit.units < bound.units := by
      by_cases moved : limit.units < (wholeAbove limit).units
      · exact iff_of_true (.inr moved) (.inl moved)
      · rw [or_iff_left moved, or_iff_right moved]
        exact lt_ceil_iff_of_dvd own (dvd_units_of_absorbed_above strict (not_lt.mp moved))
    rw [meetsSide_both base limited, meetsSide_both base limited, units_toInt64 (ceil.max value),
      greater]
    simp only [base, Option.some.injEq, exists_eq_left']
    omega

/-- The upper end of a range meets the upper bounds where they are reached. -/
theorem meetsUpper_clamped_iff (finite : ∀ bound, bounds.Declares bound → bound.isFinite = true)
    (given : bounds.upperEnd = some x) :
    bounds.MeetsUpper (x.toInt64 * oneUnits) ↔ bounds.UpperReached := by
  have ordered := int64_ordered
  unfold MeetsUpper UpperReached
  rcases side_cases given with ⟨bound, base, weak, rfl⟩ | ⟨bound, base, flagged, rfl⟩ |
    ⟨limit, base, limited, rfl⟩ | ⟨bound, limit, base, limited, rfl⟩
  · have own := finite bound (.inr (.inr (.inl base)))
    have most := floor_le_units own
    rw [meetsSide_weak base weak, meetsSide_weak base weak, units_toInt64 (hasValue_floor own)]
    omega
  · obtain ⟨n, value, -⟩ := exists_wholeBelow (finite bound (.inr (.inr (.inl base))))
    rw [meetsSide_flagged base flagged, meetsSide_flagged base flagged, units_toInt64 value]
    simp only [base, Option.some.injEq, exists_eq_left']
    omega
  · obtain ⟨n, value, -⟩ := exists_wholeBelow (finite limit (.inr (.inr (.inr limited))))
    rw [meetsSide_limited base limited, meetsSide_limited base limited, units_toInt64 value]
    simp only [base, reduceCtorEq, false_and, exists_false, or_false]
    omega
  · have own := finite bound (.inr (.inr (.inl base)))
    have most := floor_le_units own
    have floor := hasValue_floor own
    have strict := finite limit (.inr (.inr (.inr limited)))
    obtain ⟨n, value, -⟩ := exists_wholeBelow strict
    have lesser := units_min (isNaN_of_isFinite floor.1) (isNaN_of_isFinite value.1)
    have below : bound.floor.units < limit.units ∨ (wholeBelow limit).units < limit.units ↔
        (wholeBelow limit).units < limit.units ∨ bound.units < limit.units := by
      by_cases moved : (wholeBelow limit).units < limit.units
      · exact iff_of_true (.inr moved) (.inl moved)
      · rw [or_iff_left moved, or_iff_right moved]
        exact floor_lt_iff_of_dvd own (dvd_units_of_absorbed_below strict (not_lt.mp moved))
    rw [meetsSide_both base limited, meetsSide_both base limited, units_toInt64 (floor.min value),
      lesser]
    simp only [base, Option.some.injEq, exists_eq_left']
    omega

end Clamped

/-! ## Ranges -/

section Ranges

variable {bounds : NumericBounds} {a b : Int}

theorem MeetsLower.mono {units greater : Int} (met : bounds.MeetsLower units)
    (above : units ≤ greater) : bounds.MeetsLower greater where
  inclusive bound given := (met.inclusive bound given).trans above
  flagged bound given strict := (met.flagged bound given strict).trans_le above
  limited limit given := (met.limited limit given).trans_le above

theorem MeetsUpper.mono {units lesser : Int} (met : bounds.MeetsUpper units)
    (below : lesser ≤ units) : bounds.MeetsUpper lesser where
  inclusive bound given := below.trans (met.inclusive bound given)
  flagged bound given strict := below.trans_lt (met.flagged bound given strict)
  limited limit given := below.trans_lt (met.limited limit given)

theorem toInt64_mem (x : Binary64) : int64Min ≤ x.toInt64 ∧ x.toInt64 ≤ int64Max := by
  rw [Binary64.toInt64_eq, int64Min, int64Max]
  omega

theorem clampedAdd_mem (a b : Int) : int64Min ≤ clampedAdd a b ∧ clampedAdd a b ≤ int64Max := by
  rw [clampedAdd, int64Min, int64Max]
  omega

/-- The ends of a range are 64-bit integers in order, and those of its sides where it has them. -/
theorem integerRange_ends (range : bounds.integerRange = .ok (a, b)) :
    int64Min ≤ a ∧ a ≤ b ∧ b ≤ int64Max ∧ (∀ x, bounds.lowerEnd = some x → a = x.toInt64) ∧
      ∀ y, bounds.upperEnd = some y → b = y.toInt64 := by
  rw [integerRange_eq] at range
  cases lower : bounds.lowerEnd with
  | none =>
    cases upper : bounds.upperEnd with
    | none =>
      rw [lower, upper] at range
      obtain ⟨ordered, rfl, rfl⟩ := orderedRange_eq_ok.mp range
      exact ⟨by decide, ordered, by decide, nofun, nofun⟩
    | some y =>
      rw [lower, upper] at range
      obtain ⟨ordered, rfl, rfl⟩ := orderedRange_eq_ok.mp range
      have sum := clampedAdd_mem y.toInt64 defaultIntegerMin
      refine ⟨le_min (by decide) sum.1, ordered, (toInt64_mem y).2, nofun, fun _ same => ?_⟩
      rw [Option.some.inj same]
  | some x =>
    cases upper : bounds.upperEnd with
    | none =>
      rw [lower, upper] at range
      obtain ⟨ordered, rfl, rfl⟩ := orderedRange_eq_ok.mp range
      have sum := clampedAdd_mem x.toInt64 defaultIntegerMax
      refine ⟨(toInt64_mem x).1, ordered, max_le (by decide) sum.2, fun _ same => ?_, nofun⟩
      rw [Option.some.inj same]
    | some y =>
      rw [lower, upper] at range
      obtain ⟨ordered, rfl, rfl⟩ := orderedRange_eq_ok.mp range
      refine ⟨(toInt64_mem x).1, ordered, (toInt64_mem y).2, fun _ same => ?_, fun _ same => ?_⟩
      · rw [Option.some.inj same]
      · rw [Option.some.inj same]

theorem meetsLower_iff (finite : ∀ bound, bounds.Declares bound → bound.isFinite = true)
    (range : bounds.integerRange = .ok (a, b)) :
    bounds.MeetsLower (a * oneUnits) ↔ bounds.LowerReached := by
  obtain ⟨-, -, -, same, -⟩ := integerRange_ends range
  cases given : bounds.lowerEnd with
  | some x => rw [same x given, meetsLower_clamped_iff finite given]
  | none =>
    have free := side_eq_none.mp given
    exact iff_of_true (meetsSide_of_not_inForce free) (meetsSide_of_not_inForce free)

theorem meetsUpper_iff (finite : ∀ bound, bounds.Declares bound → bound.isFinite = true)
    (range : bounds.integerRange = .ok (a, b)) :
    bounds.MeetsUpper (b * oneUnits) ↔ bounds.UpperReached := by
  obtain ⟨-, -, -, -, same⟩ := integerRange_ends range
  cases given : bounds.upperEnd with
  | some x => rw [same x given, meetsUpper_clamped_iff finite given]
  | none =>
    have free := side_eq_none.mp given
    exact iff_of_true (meetsSide_of_not_inForce free) (meetsSide_of_not_inForce free)

/-- Bounds below `2 ^ 53` in magnitude are reached. -/
theorem reached_of_small (finite : ∀ bound, bounds.Declares bound → bound.isFinite = true)
    (small : ∀ bound, bounds.Declares bound → bound.absUnits < 2 ^ 53 * oneUnits) :
    bounds.LowerReached ∧ bounds.UpperReached := by
  have within (bound : Binary64) (declared : bounds.Declares bound) :
      int64Min * oneUnits < bound.units ∧ bound.units < int64Max * oneUnits := by
    have own := small bound declared
    rw [← natAbs_units] at own
    unfold int64Min int64Max
    omega
  have above (limit : Binary64) (declared : bounds.Declares limit) :
      limit.units < (wholeAbove limit).units :=
    moved_above_of_small (finite limit declared) (small limit declared)
  have below (limit : Binary64) (declared : bounds.Declares limit) :
      (wholeBelow limit).units < limit.units :=
    moved_below_of_small (finite limit declared) (small limit declared)
  constructor
  · constructor
    · exact fun bound given => (within bound (.inl given)).2.le
    · exact fun bound given _ =>
        .inr ⟨(within bound (.inl given)).2, .inl (above bound (.inl given))⟩
    · exact fun limit given =>
        .inr ⟨(within limit (.inr (.inl given))).2, .inl (above limit (.inr (.inl given)))⟩
  · constructor
    · exact fun bound given => (within bound (.inr (.inr (.inl given)))).1.le
    · exact fun bound given _ => .inr ⟨(within bound (.inr (.inr (.inl given)))).1,
        .inl (below bound (.inr (.inr (.inl given))))⟩
    · exact fun limit given => .inr ⟨(within limit (.inr (.inr (.inr given)))).1,
        .inl (below limit (.inr (.inr (.inr given))))⟩

/-- All integers of a range meet the bounds exactly where the ends of the range do, which is so for
all bounds below `2 ^ 53` in magnitude. Bounds that are reached but met by no 64-bit integer have no
range. -/
theorem integerRange_admits_iff
    (finite : ∀ bound, bounds.Declares bound → bound.isFinite = true) :
    (∀ a b, bounds.integerRange = .ok (a, b) →
      ((∀ k, a ≤ k → k ≤ b → bounds.Admits k) ↔ bounds.LowerReached ∧ bounds.UpperReached)) ∧
    ((∀ bound, bounds.Declares bound → bound.absUnits < 2 ^ 53 * oneUnits) →
      bounds.LowerReached ∧ bounds.UpperReached) ∧
    (bounds.LowerReached → bounds.UpperReached →
      (∀ k, int64Min ≤ k → k ≤ int64Max → ¬ bounds.Admits k) →
        ∃ reason, bounds.integerRange = .error reason) := by
  have admits {a b : Int} (range : bounds.integerRange = .ok (a, b)) (lower : bounds.LowerReached)
      (upper : bounds.UpperReached) (k : Int) (above : a ≤ k) (below : k ≤ b) :
      bounds.Admits k :=
    ⟨((meetsLower_iff finite range).mpr lower).mono
        (Int.mul_le_mul_of_nonneg_right above oneUnits_pos_int.le),
      ((meetsUpper_iff finite range).mpr upper).mono
        (Int.mul_le_mul_of_nonneg_right below oneUnits_pos_int.le)⟩
  refine ⟨fun a b range => ⟨fun all => ?_, fun reached => ?_⟩, reached_of_small finite,
    fun lower upper none => ?_⟩
  · have ordered := (integerRange_ends range).2.1
    exact ⟨(meetsLower_iff finite range).mp (all a le_rfl ordered).1,
      (meetsUpper_iff finite range).mp (all b ordered le_rfl).2⟩
  · exact admits range reached.1 reached.2
  · cases range : bounds.integerRange with
    | error reason => exact ⟨reason, rfl⟩
    | ok ends =>
      obtain ⟨a, b⟩ := ends
      obtain ⟨least, ordered, most, -⟩ := integerRange_ends range
      exact absurd (admits range lower upper a le_rfl ordered) (none a least (ordered.trans most))

/-! Beyond `2 ^ 53` an inclusive bound makes up for an exclusive one that stays where it is. -/

def largeBounds : NumericBounds :=
  ⟨some (.ofInt (2 ^ 53 + 2)), some (.ofInt (2 ^ 64)), some (.limit wholeLimit), none, none⟩

theorem largeBounds_declared (bound : Binary64) (declared : largeBounds.Declares bound) :
    bound.isFinite = true := by
  rcases declared with same | same | same | same <;> cases same <;> decide +kernel

theorem largeBounds_admitted :
    (∀ bound, largeBounds.Declares bound → bound.isFinite = true) ∧
    largeBounds.integerRange = .ok (2 ^ 53 + 2, int64Max) ∧
      ∀ k, 2 ^ 53 + 2 ≤ k → k ≤ int64Max → largeBounds.Admits k := by
  have range : largeBounds.integerRange = .ok (2 ^ 53 + 2, int64Max) := by decide +kernel
  refine ⟨largeBounds_declared, range, ?_⟩
  have exclusive : wholeLimit.units < int64Max * oneUnits := by decide +kernel
  have above : wholeLimit.units < (Binary64.ofInt (2 ^ 53 + 2)).units := by decide +kernel
  refine ((integerRange_admits_iff largeBounds_declared).1 _ _ range).mpr ⟨?_, ?_⟩
  · refine (meetsSide_both rfl rfl).mpr ⟨by decide +kernel, .inr ⟨exclusive, .inr ⟨_, rfl, above⟩⟩⟩
  · exact (meetsSide_weak rfl (.inl rfl)).mpr (by decide +kernel)

/-! A sum is rounded back to its exclusive bound, and a bound beyond the 64-bit integers is lost. -/

/-- No integer is above `2 ^ 53` and at most `2 ^ 53`. -/
def absorbedLimit : NumericBounds :=
  ⟨some wholeLimit, some wholeLimit, some (.flag true), none, none⟩

def beyondWords : NumericBounds := ⟨some (.ofInt (2 ^ 64)), none, none, none, none⟩

theorem absorbed_limit_admitted :
    (absorbedLimit.integerRange = .ok (2 ^ 53, 2 ^ 53) ∧ ∀ k, ¬ absorbedLimit.Admits k) ∧
    (beyondWords.integerRange = .ok (int64Max, int64Max) ∧ ¬ beyondWords.Admits int64Max) := by
  refine ⟨⟨by decide +kernel, ?_⟩, by decide +kernel, ?_⟩
  · rintro k ⟨lower, upper⟩
    exact absurd (upper.inclusive _ rfl) (not_le.mpr (lower.flagged _ rfl rfl))
  · rintro ⟨lower, -⟩
    have above : int64Max * oneUnits < (Binary64.ofInt (2 ^ 64)).units := by decide +kernel
    exact absurd (lower.inclusive _ rfl) (not_le.mpr above)

end Ranges

end NumericBounds

end SchemaSampler
