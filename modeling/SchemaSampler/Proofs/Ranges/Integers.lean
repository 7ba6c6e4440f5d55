import SchemaSampler.Proofs.Binary64.Whole
import SchemaSampler.Generator.Ranges

/-!
# Integer ranges

The range of an integer node is computed on floats: bounds are rounded to whole numbers, exclusive
ones are moved by one, and of two bounds on one side the narrower one counts. Up to `2 ^ 53` all of
this is exact.

The two sides of a range mirror each other. Both are the one function `side`, so what it computes is
proved once, from what becomes of a single bound and of two ends.

Results:
1. `side_delimits`: a side delimits the integers that meet its bounds.
2. `integerRange_tight`: the least and the greatest integers of a range.
-/

namespace SchemaSampler

open Binary64

/-! ## What bounds demand -/

/-- The demands of the bounds on one side: of the inclusive bound, of the same bound where a flag
makes it strict, and of a numeric exclusive bound. A flag without an inclusive bound demands
nothing. -/
@[mk_iff]
structure MeetsSide (base : Option Binary64) (exclusive : Option ExclusiveBound)
    (weakly strictly : Binary64 → Prop) : Prop where
  inclusive : ∀ bound, base = some bound → weakly bound
  flagged : ∀ bound, base = some bound → exclusive = some (.flag true) → strictly bound
  limited : ∀ limit, exclusive = some (.limit limit) → strictly limit

namespace NumericBounds

/-- A value, given exactly in units of `2 ^ -1074`, meets the lower bounds. -/
def MeetsLower (bounds : NumericBounds) (units : Int) : Prop :=
  MeetsSide bounds.minimum bounds.exclusiveMinimum (·.units ≤ units) (·.units < units)

def MeetsUpper (bounds : NumericBounds) (units : Int) : Prop :=
  MeetsSide bounds.maximum bounds.exclusiveMaximum (units ≤ ·.units) (units < ·.units)

/-- The bound is one of those that are present. -/
def Declares (bounds : NumericBounds) (bound : Binary64) : Prop :=
  bounds.minimum = some bound ∨ bounds.exclusiveMinimum = some (.limit bound) ∨
    bounds.maximum = some bound ∨ bounds.exclusiveMaximum = some (.limit bound)

/-- A bound on one side is in force; a flag alone is none. -/
def InForce (inclusive : Option Binary64) (exclusive : Option ExclusiveBound) : Prop :=
  (∃ bound, inclusive = some bound) ∨ ∃ limit, exclusive = some (.limit limit)

/-- Nothing is demanded on a side that is not in force. -/
theorem meetsSide_of_not_inForce {base : Option Binary64} {exclusive : Option ExclusiveBound}
    {weakly strictly : Binary64 → Prop} (free : ¬ InForce base exclusive) :
    MeetsSide base exclusive weakly strictly where
  inclusive bound given := absurd (.inl ⟨bound, given⟩) free
  flagged bound given _ := absurd (.inl ⟨bound, given⟩) free
  limited limit given := absurd (.inr ⟨limit, given⟩) free

end NumericBounds

/-- The number is finite and at most `2 ^ 53 - 1` in magnitude. -/
def Binary64.InSafeRange (x : Binary64) : Prop :=
  x.isFinite = true ∧ x.absUnits ≤ (2 ^ 53 - 1) * oneUnits

/-! ## Ends of sides -/

/-- The integers with a property are those from a number on. -/
def StartsAt (x : Binary64) (holds : Int → Prop) : Prop :=
  ∃ first : Int, x.HasValue first ∧ first.natAbs ≤ 2 ^ 53 ∧ ∀ k, holds k ↔ first ≤ k

/-- The integers with a property are those up to a number. -/
def EndsAt (x : Binary64) (holds : Int → Prop) : Prop :=
  ∃ last : Int, x.HasValue last ∧ last.natAbs ≤ 2 ^ 53 ∧ ∀ k, holds k ↔ k ≤ last

section Ends

variable {x y : Binary64} {holds others : Int → Prop}

theorem natAbs_ediv_le {units : Int} (small : units.natAbs ≤ (2 ^ 53 - 1) * oneUnits) :
    (units / oneUnits).natAbs ≤ 2 ^ 53 - 1 := by
  have above : (-(2 ^ 53 - 1) : Int) * oneUnits ≤ units := by omega
  have below : units ≤ (2 ^ 53 - 1 : Int) * oneUnits := by omega
  have := (Int.le_ediv_iff_mul_le oneUnits_pos_int).mpr above
  have := Int.ediv_le_of_le_mul oneUnits_pos_int below
  omega

theorem Binary64.InSafeRange.natAbs_floor_le (safe : x.InSafeRange) :
    (x.units / oneUnits).natAbs ≤ 2 ^ 53 - 1 :=
  natAbs_ediv_le (natAbs_units x ▸ safe.2)

theorem Binary64.InSafeRange.natAbs_ceil_le (safe : x.InSafeRange) :
    (-x.units / oneUnits).natAbs ≤ 2 ^ 53 - 1 :=
  natAbs_ediv_le (by rw [Int.natAbs_neg, natAbs_units]; exact safe.2)

theorem startsAt_ceil (safe : x.InSafeRange) :
    StartsAt x.ceil fun k => x.units ≤ k * oneUnits := by
  have small := safe.natAbs_ceil_le
  refine ⟨_, hasValue_ceil safe.1, by omega, fun k => ?_⟩
  rw [neg_le, Int.le_ediv_iff_mul_le oneUnits_pos_int, Int.neg_mul, neg_le_neg_iff]

theorem startsAt_wholeAbove (safe : x.InSafeRange) :
    StartsAt (NumericBounds.wholeAbove x) fun k => x.units < k * oneUnits := by
  have small := safe.natAbs_floor_le
  have next : (x.units / oneUnits + 1).natAbs ≤ 2 ^ 53 := by omega
  refine ⟨_, (hasValue_floor safe.1).add hasValue_one next, next, fun k => ?_⟩
  rw [Int.add_one_le_iff, Int.ediv_lt_iff_lt_mul oneUnits_pos_int]

theorem endsAt_floor (safe : x.InSafeRange) : EndsAt x.floor fun k => k * oneUnits ≤ x.units := by
  have small := safe.natAbs_floor_le
  refine ⟨_, hasValue_floor safe.1, by omega, fun k => ?_⟩
  rw [Int.le_ediv_iff_mul_le oneUnits_pos_int]

theorem endsAt_wholeBelow (safe : x.InSafeRange) :
    EndsAt (NumericBounds.wholeBelow x) fun k => k * oneUnits < x.units := by
  have small := safe.natAbs_ceil_le
  have next : (-(-x.units / oneUnits) - 1).natAbs ≤ 2 ^ 53 := by omega
  refine ⟨_, (hasValue_ceil safe.1).sub hasValue_one next, next, fun k => ?_⟩
  rw [Int.le_sub_one_iff, lt_neg, Int.ediv_lt_iff_lt_mul oneUnits_pos_int, Int.neg_mul,
    neg_lt_neg_iff]

theorem StartsAt.max (first : StartsAt x holds) (second : StartsAt y others) :
    StartsAt (x.max y) fun k => holds k ∧ others k := by
  obtain ⟨a, value, small, holds_iff⟩ := first
  obtain ⟨b, other, bounded, others_iff⟩ := second
  refine ⟨Max.max a b, value.max other, by omega, fun k => ?_⟩
  exact (and_congr (holds_iff k) (others_iff k)).trans max_le_iff.symm

theorem EndsAt.min (first : EndsAt x holds) (second : EndsAt y others) :
    EndsAt (x.min y) fun k => holds k ∧ others k := by
  obtain ⟨a, value, small, holds_iff⟩ := first
  obtain ⟨b, other, bounded, others_iff⟩ := second
  refine ⟨Min.min a b, value.min other, by omega, fun k => ?_⟩
  exact (and_congr (holds_iff k) (others_iff k)).trans le_min_iff.symm

/-- Integers with at most 53 bits fit 64 bits. -/
theorem toInt64_of_natAbs_le {a : Int} (value : x.HasValue a) (small : a.natAbs ≤ 2 ^ 53) :
    x.toInt64 = a := by
  rw [value.toInt64_eq, int64Min, int64Max]
  omega

end Ends

/-! ## Sides -/

section Side

variable {base : Option Binary64} {exclusive : Option ExclusiveBound} {x : Binary64}
  {weak strict : Binary64 → Binary64} {narrower : Binary64 → Binary64 → Binary64}
  {weakly strictly : Binary64 → Int → Prop} {delimits : Binary64 → (Int → Prop) → Prop}

theorem side_eq_none :
    NumericBounds.side base exclusive weak strict narrower = none ↔
      ¬ NumericBounds.InForce base exclusive := by
  unfold NumericBounds.side NumericBounds.InForce
  rcases base with _ | bound <;> rcases exclusive with _ | flag | limit <;> simp

/-- A side delimits what meets its bounds when its parts do: the weak and the strict reading of a
bound, and the narrower of two ends. -/
theorem side_delimits (stronger : ∀ bound k, strictly bound k → weakly bound k)
    (weaks : ∀ bound, base = some bound → delimits (weak bound) (weakly bound))
    (stricts : ∀ bound, base = some bound ∨ exclusive = some (.limit bound) →
      delimits (strict bound) (strictly bound))
    (both : ∀ {x y holds others}, delimits x holds → delimits y others →
      delimits (narrower x y) fun k => holds k ∧ others k)
    (given : NumericBounds.side base exclusive weak strict narrower = some x) :
    delimits x fun k => MeetsSide base exclusive (weakly · k) (strictly · k) := by
  -- What a single bound demands is rewritten to what the side demands.
  have demanded {holds : Int → Prop} (own : delimits x holds)
      (same : ∀ k, holds k ↔ MeetsSide base exclusive (weakly · k) (strictly · k)) :
      delimits x fun k => MeetsSide base exclusive (weakly · k) (strictly · k) :=
    (funext fun k => propext (same k) : holds = _) ▸ own
  cases base with
  | none =>
    rcases exclusive with _ | flag | limit
    · cases given
    · cases given
    · cases given
      exact demanded (stricts limit (.inr rfl)) (by simp [meetsSide_iff])
  | some bound =>
    rcases exclusive with _ | (_ | _) | limit
    · cases given
      exact demanded (weaks bound rfl) (by simp [meetsSide_iff])
    · cases given
      exact demanded (weaks bound rfl) (by simp [meetsSide_iff])
    · cases given
      exact demanded (stricts bound (.inl rfl)) (by simpa [meetsSide_iff] using stronger bound)
    · cases given
      exact demanded (both (weaks bound rfl) (stricts limit (.inr rfl))) (by simp [meetsSide_iff])

end Side

/-! ## Ranges -/

namespace NumericBounds

/-- The integer meets all bounds. -/
def Admits (bounds : NumericBounds) (k : Int) : Prop :=
  bounds.MeetsLower (k * oneUnits) ∧ bounds.MeetsUpper (k * oneUnits)

def LowerInForce (bounds : NumericBounds) : Prop :=
  InForce bounds.minimum bounds.exclusiveMinimum

def UpperInForce (bounds : NumericBounds) : Prop :=
  InForce bounds.maximum bounds.exclusiveMaximum

/-- The two sides of an integer range. -/
def lowerEnd (bounds : NumericBounds) : Option Binary64 :=
  side bounds.minimum bounds.exclusiveMinimum Binary64.ceil wholeAbove Binary64.max

def upperEnd (bounds : NumericBounds) : Option Binary64 :=
  side bounds.maximum bounds.exclusiveMaximum Binary64.floor wholeBelow Binary64.min

variable {bounds : NumericBounds}

theorem exists_lowerEnd (safe : ∀ bound, bounds.Declares bound → bound.InSafeRange)
    (force : bounds.LowerInForce) :
    ∃ x, bounds.lowerEnd = some x ∧ ∃ first : Int, x.toInt64 = first ∧ first.natAbs ≤ 2 ^ 53 ∧
      ∀ k : Int, bounds.MeetsLower (k * oneUnits) ↔ first ≤ k := by
  obtain ⟨x, given⟩ : ∃ x, bounds.lowerEnd = some x :=
    Option.ne_none_iff_exists'.mp fun none => side_eq_none.mp none force
  have starts : StartsAt x fun k => bounds.MeetsLower (k * oneUnits) := by
    refine side_delimits (fun _ _ => le_of_lt) (fun bound declared => ?_)
      (fun bound declared => ?_) StartsAt.max given
    · exact startsAt_ceil (safe bound (.inl declared))
    · exact startsAt_wholeAbove (safe bound (declared.elim .inl (.inr ∘ .inl)))
  obtain ⟨first, value, small, meets_iff⟩ := starts
  exact ⟨x, given, first, toInt64_of_natAbs_le value small, small, meets_iff⟩

theorem exists_upperEnd (safe : ∀ bound, bounds.Declares bound → bound.InSafeRange)
    (force : bounds.UpperInForce) :
    ∃ y, bounds.upperEnd = some y ∧ ∃ last : Int, y.toInt64 = last ∧ last.natAbs ≤ 2 ^ 53 ∧
      ∀ k : Int, bounds.MeetsUpper (k * oneUnits) ↔ k ≤ last := by
  obtain ⟨y, given⟩ : ∃ y, bounds.upperEnd = some y :=
    Option.ne_none_iff_exists'.mp fun none => side_eq_none.mp none force
  have ends : EndsAt y fun k => bounds.MeetsUpper (k * oneUnits) := by
    refine side_delimits (fun _ _ => le_of_lt) (fun bound declared => ?_)
      (fun bound declared => ?_) EndsAt.min given
    · exact endsAt_floor (safe bound (.inr (.inr (.inl declared))))
    · exact endsAt_wholeBelow (safe bound (.inr (.inr declared)))
  obtain ⟨last, value, small, meets_iff⟩ := ends
  exact ⟨y, given, last, toInt64_of_natAbs_le value small, small, meets_iff⟩

/-- A range whose ends are in order. -/
def orderedRange (low high : Int) : Except InvalidReason (Int × Int) :=
  if high < low then .error (.emptyIntegerRange low high) else .ok (low, high)

theorem integerRange_eq : bounds.integerRange =
    match bounds.lowerEnd.map toInt64, bounds.upperEnd.map toInt64 with
    | some low, some high => orderedRange low high
    | some low, none => orderedRange low (max defaultIntegerMax (clampedAdd low defaultIntegerMax))
    | none, some high =>
      orderedRange (min defaultIntegerMin (clampedAdd high defaultIntegerMin)) high
    | none, none => orderedRange defaultIntegerMin defaultIntegerMax := by
  rw [integerRange, ← lowerEnd, ← upperEnd]
  cases bounds.lowerEnd <;> cases bounds.upperEnd <;> rfl

theorem orderedRange_eq_ok {low high a b : Int} :
    orderedRange low high = .ok (a, b) ↔ low ≤ high ∧ a = low ∧ b = high := by
  unfold orderedRange
  split <;> simp <;> omega

/-- Far from the ends of 64-bit integers nothing is clamped. -/
theorem clampedAdd_eq {a b : Int} (small : a.natAbs ≤ 2 ^ 53) (other : b.natAbs ≤ 2 ^ 53) :
    clampedAdd a b = a + b := by
  rw [clampedAdd, int64Min, int64Max]
  omega

theorem integerRange_eq_ok_of_both {x y : Binary64} {first last a b : Int}
    (lower : bounds.lowerEnd = some x) (upper : bounds.upperEnd = some y)
    (low : x.toInt64 = first) (high : y.toInt64 = last) :
    bounds.integerRange = .ok (a, b) ↔ first ≤ last ∧ a = first ∧ b = last := by
  rw [integerRange_eq, lower, upper, Option.map_some, Option.map_some, low, high]
  exact orderedRange_eq_ok

theorem integerRange_of_lower {x : Binary64} {first : Int} (lower : bounds.lowerEnd = some x)
    (upper : bounds.upperEnd = none) (low : x.toInt64 = first) (small : first.natAbs ≤ 2 ^ 53) :
    bounds.integerRange =
      .ok (first, max defaultIntegerMax (first + defaultIntegerMax)) := by
  rw [integerRange_eq, lower, upper, Option.map_some, Option.map_none, low]
  refine orderedRange_eq_ok.mpr ⟨?_, rfl, ?_⟩
  · rw [clampedAdd_eq small (by decide), defaultIntegerMax]
    omega
  · rw [clampedAdd_eq small (by decide)]

theorem integerRange_of_upper {y : Binary64} {last : Int} (lower : bounds.lowerEnd = none)
    (upper : bounds.upperEnd = some y) (high : y.toInt64 = last) (small : last.natAbs ≤ 2 ^ 53) :
    bounds.integerRange =
      .ok (min defaultIntegerMin (last + defaultIntegerMin), last) := by
  rw [integerRange_eq, lower, upper, Option.map_none, Option.map_some, high]
  refine orderedRange_eq_ok.mpr ⟨?_, ?_, rfl⟩
  · rw [clampedAdd_eq small (by decide), defaultIntegerMin]
    omega
  · rw [clampedAdd_eq small (by decide)]

/-- With bounds on both sides there is a range exactly where an integer meets them all, and it
reaches from the least such integer to the greatest. With bounds on one side there always is a
range: it starts or ends at the extreme integer and has `2 ^ 31 - 1` more at least, which all meet
the bounds. -/
theorem integerRange_tight (safe : ∀ bound, bounds.Declares bound → bound.InSafeRange) :
    (bounds.LowerInForce → bounds.UpperInForce →
      ((∃ range, bounds.integerRange = .ok range) ↔ ∃ k, bounds.Admits k) ∧
      ∀ a b, bounds.integerRange = .ok (a, b) →
        IsLeast {k | bounds.Admits k} a ∧ IsGreatest {k | bounds.Admits k} b) ∧
    (bounds.LowerInForce → ¬ bounds.UpperInForce →
      ∃ a b, bounds.integerRange = .ok (a, b) ∧
        IsLeast {k : Int | bounds.MeetsLower (k * oneUnits)} a ∧ a + (2 ^ 31 - 1) ≤ b ∧
        ∀ k, a ≤ k → k ≤ b → bounds.MeetsLower (k * oneUnits)) ∧
    (¬ bounds.LowerInForce → bounds.UpperInForce →
      ∃ a b, bounds.integerRange = .ok (a, b) ∧
        IsGreatest {k : Int | bounds.MeetsUpper (k * oneUnits)} b ∧ a + (2 ^ 31 - 1) ≤ b ∧
        ∀ k, a ≤ k → k ≤ b → bounds.MeetsUpper (k * oneUnits)) := by
  refine ⟨fun lower upper => ?both, fun lower upper => ?below, fun lower upper => ?above⟩
  case both =>
    obtain ⟨x, given, first, low, -, lower_iff⟩ := exists_lowerEnd safe lower
    obtain ⟨y, other, last, high, -, upper_iff⟩ := exists_upperEnd safe upper
    have range_iff {a b : Int} := integerRange_eq_ok_of_both (a := a) (b := b) given other low high
    have admits_iff (k : Int) : bounds.Admits k ↔ first ≤ k ∧ k ≤ last :=
      and_congr (lower_iff k) (upper_iff k)
    constructor
    · constructor
      · rintro ⟨⟨a, b⟩, range⟩
        obtain ⟨ordered, -, -⟩ := range_iff.mp range
        exact ⟨first, (admits_iff first).mpr ⟨le_rfl, ordered⟩⟩
      · rintro ⟨k, admitted⟩
        obtain ⟨above, below⟩ := (admits_iff k).mp admitted
        exact ⟨(first, last), range_iff.mpr ⟨above.trans below, rfl, rfl⟩⟩
    · intro a b range
      obtain ⟨ordered, rfl, rfl⟩ := range_iff.mp range
      refine ⟨⟨(admits_iff a).mpr ⟨le_rfl, ordered⟩, fun k admitted => ?_⟩,
        (admits_iff b).mpr ⟨ordered, le_rfl⟩, fun k admitted => ?_⟩
      · exact ((admits_iff k).mp admitted).1
      · exact ((admits_iff k).mp admitted).2
  case below =>
    obtain ⟨x, given, first, low, small, lower_iff⟩ := exists_lowerEnd safe lower
    refine ⟨first, _, integerRange_of_lower given (side_eq_none.mpr upper) low small,
      ⟨(lower_iff first).mpr le_rfl, fun k meets => (lower_iff k).mp meets⟩, ?_,
      fun k above _ => (lower_iff k).mpr above⟩
    rw [defaultIntegerMax]
    omega
  case above =>
    obtain ⟨y, given, last, high, small, upper_iff⟩ := exists_upperEnd safe upper
    refine ⟨_, last, integerRange_of_upper (side_eq_none.mpr lower) given high small,
      ⟨(upper_iff last).mpr le_rfl, fun k meets => (upper_iff k).mp meets⟩, ?_,
      fun k _ below => (upper_iff k).mpr below⟩
    rw [defaultIntegerMin]
    omega

/-! Fractions on both sides, on the lower one beside a flag without its bound, and on the upper
one. -/

/-- Minus three halves and five halves. -/
def belowZero : Binary64 := .ofMagnitude true 0x3FF8000000000000
def aboveTwo : Binary64 := .ofMagnitude false 0x4004000000000000

def twoSided : NumericBounds :=
  ⟨some belowZero, some (.ofInt 3), some (.flag true), some (.limit aboveTwo), none⟩

def onlyLower : NumericBounds := ⟨some belowZero, none, none, some (.flag true), none⟩

def onlyUpper : NumericBounds := ⟨none, none, some (.flag true), some (.limit aboveTwo), none⟩

theorem declared_inSafeRange (given : bounds = twoSided ∨ bounds = onlyLower ∨ bounds = onlyUpper)
    (bound : Binary64) (declared : bounds.Declares bound) : bound.InSafeRange := by
  have limits : bound = belowZero ∨ bound = aboveTwo ∨ bound = .ofInt 3 := by
    rcases given with rfl | rfl | rfl <;> rcases declared with same | same | same | same <;>
      cases same <;> simp
  rcases limits with rfl | rfl | rfl <;> exact ⟨by decide +kernel, by decide +kernel⟩

theorem halves_tight :
    (twoSided.integerRange = .ok (-1, 2) ∧ IsLeast {k | twoSided.Admits k} (-1) ∧
      IsGreatest {k | twoSided.Admits k} 2) ∧
    (∃ b, onlyLower.integerRange = .ok (-1, b) ∧
      IsLeast {k : Int | onlyLower.MeetsLower (k * oneUnits)} (-1)) ∧
    ∃ a, onlyUpper.integerRange = .ok (a, 2) ∧
      IsGreatest {k : Int | onlyUpper.MeetsUpper (k * oneUnits)} 2 := by
  have range : twoSided.integerRange = .ok (-1, 2) := by decide +kernel
  have lowerRange : onlyLower.integerRange = .ok (-1, 0x7FFFFFFF) := by decide +kernel
  have upperRange : onlyUpper.integerRange = .ok (-0x80000000, 2) := by decide +kernel
  refine ⟨⟨range, ?_⟩, ?_, ?_⟩
  · have tight := integerRange_tight (declared_inSafeRange (.inl rfl))
    exact (tight.1 (.inl ⟨_, rfl⟩) (.inl ⟨_, rfl⟩)).2 _ _ range
  · have tight := integerRange_tight (declared_inSafeRange (.inr (.inl rfl)))
    obtain ⟨a, b, found, least, -⟩ := tight.2.1 (.inl ⟨_, rfl⟩) (by rintro (⟨_, ⟨⟩⟩ | ⟨_, ⟨⟩⟩))
    cases lowerRange.symm.trans found
    exact ⟨_, lowerRange, least⟩
  · have tight := integerRange_tight (declared_inSafeRange (.inr (.inr rfl)))
    obtain ⟨a, b, found, greatest, -⟩ := tight.2.2 (by rintro (⟨_, ⟨⟩⟩ | ⟨_, ⟨⟩⟩)) (.inr ⟨_, rfl⟩)
    cases upperRange.symm.trans found
    exact ⟨_, upperRange, greatest⟩

end NumericBounds

end SchemaSampler
