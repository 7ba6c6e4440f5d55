import SchemaSampler.Proofs.Binary64.Neighbours
import SchemaSampler.Proofs.Ranges.Integers

/-!
# Number ranges

The range of a number node is computed without rounding: an exclusive bound becomes its neighbour, so
the ends of a range are themselves the extreme numbers that meet the bounds. Only an open side is
filled by a sum, and a range whose width overflows is refused.

Results:
1. `exists_lowest`, `exists_highest`: a side delimits the finite numbers that meet its bounds.
2. `openAbove_range`, `openBelow_range`: the range with one side filled.
3. `numberRange_tight`: the range holds all finite numbers that meet the bounds and no others.
-/

namespace SchemaSampler

open Binary64

/-! ## Ends of sides -/

/-- The finite numbers with a property are those from a number on; there are none from infinity
on. -/
structure NumbersFrom (x : Binary64) (holds : Int → Prop) : Prop where
  number : x.isNaN = false
  bounded : -(infiniteMagnitude : Int) < x.rank
  holds_iff : ∀ y : Binary64, y.isFinite = true → (holds y.units ↔ x.units ≤ y.units)

structure NumbersUpTo (x : Binary64) (holds : Int → Prop) : Prop where
  number : x.isNaN = false
  bounded : x.rank < infiniteMagnitude
  holds_iff : ∀ y : Binary64, y.isFinite = true → (holds y.units ↔ y.units ≤ x.units)

section Ends

variable {x y : Binary64} {holds others : Int → Prop}

theorem numbersFrom_self (finite : x.isFinite = true) : NumbersFrom x (x.units ≤ ·) where
  number := isNaN_of_isFinite finite
  bounded := by
    have := (isFinite_iff_rank (isNaN_of_isFinite finite)).mp finite
    omega
  holds_iff _ _ := Iff.rfl

theorem numbersUpTo_self (finite : x.isFinite = true) : NumbersUpTo x (· ≤ x.units) where
  number := isNaN_of_isFinite finite
  bounded := by
    have := (isFinite_iff_rank (isNaN_of_isFinite finite)).mp finite
    omega
  holds_iff _ _ := Iff.rfl

theorem numbersFrom_nextUp (finite : x.isFinite = true) :
    NumbersFrom x.nextUp (x.units < ·) where
  number := isNaN_nextUp (isNaN_of_isFinite finite)
  bounded := by
    have := (isFinite_iff_rank (isNaN_of_isFinite finite)).mp finite
    rw [rank_nextUp finite]
    omega
  holds_iff y other := by
    have own := isNaN_of_isFinite finite
    have number := isNaN_of_isFinite other
    rw [← lt_iff_units_lt own number, lt_iff_nextUp_le finite number,
      le_iff_units_le (isNaN_nextUp own) number]

theorem numbersUpTo_nextDown (finite : x.isFinite = true) :
    NumbersUpTo x.nextDown (· < x.units) where
  number := isNaN_nextDown (isNaN_of_isFinite finite)
  bounded := by
    have := (isFinite_iff_rank (isNaN_of_isFinite finite)).mp finite
    rw [rank_nextDown finite]
    omega
  holds_iff y other := by
    have own := isNaN_of_isFinite finite
    have number := isNaN_of_isFinite other
    rw [← lt_iff_units_lt number own, lt_iff_le_nextDown finite number,
      le_iff_units_le number (isNaN_nextDown own)]

theorem NumbersFrom.max (first : NumbersFrom x holds) (second : NumbersFrom y others) :
    NumbersFrom (x.max y) fun units => holds units ∧ others units where
  number := isNaN_max first.number second.number
  bounded := by
    rw [Binary64.max, first.number, if_neg Bool.false_ne_true]
    split
    · exact second.bounded
    · exact first.bounded
  holds_iff z finite := by
    rw [first.holds_iff z finite, second.holds_iff z finite, units_max first.number second.number,
      max_le_iff]

theorem NumbersUpTo.min (first : NumbersUpTo x holds) (second : NumbersUpTo y others) :
    NumbersUpTo (x.min y) fun units => holds units ∧ others units where
  number := isNaN_min first.number second.number
  bounded := by
    rw [Binary64.min, first.number, if_neg Bool.false_ne_true]
    split
    · exact second.bounded
    · exact first.bounded
  holds_iff z finite := by
    rw [first.holds_iff z finite, second.holds_iff z finite, units_min first.number second.number,
      le_min_iff]

/-- An end that is not finite leaves no finite number. -/
theorem NumbersFrom.isFinite (from_ : NumbersFrom x holds) (finite : y.isFinite = true)
    (met : holds y.units) : x.isFinite = true := by
  have number := isNaN_of_isFinite finite
  have below := (units_le_units_iff from_.number number).mp ((from_.holds_iff y finite).mp met)
  have small := (isFinite_iff_rank number).mp finite
  have bounded := from_.bounded
  exact (isFinite_iff_rank from_.number).mpr (by omega)

theorem NumbersUpTo.isFinite (upTo : NumbersUpTo x holds) (finite : y.isFinite = true)
    (met : holds y.units) : x.isFinite = true := by
  have number := isNaN_of_isFinite finite
  have above := (units_le_units_iff number upTo.number).mp ((upTo.holds_iff y finite).mp met)
  have small := (isFinite_iff_rank number).mp finite
  have bounded := upTo.bounded
  exact (isFinite_iff_rank upTo.number).mpr (by omega)

end Ends

/-! ## Sides -/

namespace NumericBounds

/-- The finite number meets all bounds. -/
def AdmitsNumber (bounds : NumericBounds) (x : Binary64) : Prop :=
  bounds.MeetsLower x.units ∧ bounds.MeetsUpper x.units

/-- The two sides of a number range. -/
def lowest (bounds : NumericBounds) : Option Binary64 :=
  side bounds.minimum bounds.exclusiveMinimum id Binary64.nextUp Binary64.max

def highest (bounds : NumericBounds) : Option Binary64 :=
  side bounds.maximum bounds.exclusiveMaximum id Binary64.nextDown Binary64.min

variable {bounds : NumericBounds}

theorem exists_lowest (finite : ∀ bound, bounds.Declares bound → bound.isFinite = true)
    (force : bounds.LowerInForce) :
    ∃ x, bounds.lowest = some x ∧ NumbersFrom x bounds.MeetsLower := by
  obtain ⟨x, given⟩ : ∃ x, bounds.lowest = some x :=
    Option.ne_none_iff_exists'.mp fun none => side_eq_none.mp none force
  refine ⟨x, given, ?_⟩
  refine side_delimits (fun _ _ => le_of_lt) (fun bound declared => ?_)
    (fun bound declared => ?_) NumbersFrom.max given
  · exact numbersFrom_self (finite bound (.inl declared))
  · exact numbersFrom_nextUp (finite bound (declared.elim .inl (.inr ∘ .inl)))

theorem exists_highest (finite : ∀ bound, bounds.Declares bound → bound.isFinite = true)
    (force : bounds.UpperInForce) :
    ∃ y, bounds.highest = some y ∧ NumbersUpTo y bounds.MeetsUpper := by
  obtain ⟨y, given⟩ : ∃ y, bounds.highest = some y :=
    Option.ne_none_iff_exists'.mp fun none => side_eq_none.mp none force
  refine ⟨y, given, ?_⟩
  refine side_delimits (fun _ _ => le_of_lt) (fun bound declared => ?_)
    (fun bound declared => ?_) NumbersUpTo.min given
  · exact numbersUpTo_self (finite bound (.inr (.inr (.inl declared))))
  · exact numbersUpTo_nextDown (finite bound (.inr (.inr declared)))

/-! ## Ranges -/

/-- A range whose ends and width are finite and whose ends are in order. -/
def boundedRange (low high : Binary64) : Except InvalidReason (Binary64 × Binary64) :=
  if !(low.isFinite && high.isFinite && (high.sub low).isFinite) then
    .error (.infiniteNumberRange low high)
  else if high.lt low then .error (.emptyNumberRange low high)
  else .ok (low, high)

/-- The upper end of a range without upper bounds, and the lower end of one without lower bounds. -/
def openAbove (low : Binary64) : Binary64 := if low.le .one then .one else low.add .one
def openBelow (high : Binary64) : Binary64 := if Binary64.zero.le high then .zero else high.sub .one

theorem numberRange_eq : bounds.numberRange =
    match bounds.lowest, bounds.highest with
    | some low, some high => boundedRange low high
    | some low, none => boundedRange low (openAbove low)
    | none, some high => boundedRange (openBelow high) high
    | none, none => boundedRange .zero .one := by
  rw [numberRange, ← lowest, ← highest]
  cases bounds.lowest with
  | none =>
    cases bounds.highest with
    | none => rfl
    | some high =>
      unfold openBelow
      dsimp only
      split <;> rfl
  | some low =>
    cases bounds.highest with
    | none =>
      unfold openAbove
      dsimp only
      split <;> rfl
    | some high => rfl

theorem boundedRange_eq_ok {low high a b : Binary64} :
    boundedRange low high = .ok (a, b) ↔
      (low.isFinite = true ∧ high.isFinite = true ∧ low.le high = true ∧
        (high.sub low).isFinite = true) ∧ a = low ∧ b = high := by
  unfold boundedRange
  split
  next infinite =>
    refine ⟨nofun, fun ⟨⟨first, last, _, width⟩, _⟩ => ?_⟩
    simp [first, last, width] at infinite
  next finite =>
    simp only [Bool.not_eq_true', Bool.not_eq_false, Bool.and_eq_true] at finite
    obtain ⟨⟨first, last⟩, width⟩ := finite
    have number := isNaN_of_isFinite first
    have other := isNaN_of_isFinite last
    have ordered : low.le high = true ↔ ¬ high.lt low = true := by
      rw [le_iff_rank_le number other, lt_iff_rank_lt other number, not_lt]
    split
    next empty => exact ⟨nofun, fun ⟨⟨_, _, below, _⟩, _⟩ => absurd empty (ordered.mp below)⟩
    next stocked =>
      rw [Except.ok.injEq, Prod.mk.injEq, eq_comm (a := low), eq_comm (a := high)]
      exact (and_iff_right ⟨first, last, ordered.mpr stocked, width⟩).symm

section Open

variable {x : Binary64}

theorem natAbs_units_le (finite : x.isFinite = true) : x.units.natAbs ≤ greatestUnits :=
  natAbs_units x ▸ absUnits_le_greatestUnits finite

theorem units_one : Binary64.one.units = oneUnits := by
  rw [hasValue_one.2, Int.one_mul]

/-- A range with a finite lower end alone reaches up to a finite number. -/
theorem openAbove_range (finite : x.isFinite = true) :
    boundedRange x (openAbove x) = .ok (x, openAbove x) := by
  have own := natAbs_units_le finite
  refine boundedRange_eq_ok.mpr ⟨⟨finite, ?_⟩, rfl, rfl⟩
  have number := isNaN_of_isFinite finite
  unfold openAbove
  split
  next below =>
    refine ⟨hasValue_one.1, below, isFinite_add hasValue_one.1 ((isFinite_neg x).trans finite) ?_⟩
    rw [units_neg, units_one]
    omega
  next above =>
    rw [le_iff_units_le number (isNaN_of_isFinite hasValue_one.1), units_one, not_le] at above
    have next : (x.add .one).isFinite = true := by
      refine isFinite_add finite hasValue_one.1 ?_
      rw [units_one]
      omega
    have grown : x.units ≤ (x.add .one).units := by
      refine le_units_add finite hasValue_one.1 finite ?_
      rw [units_one]
      omega
    refine ⟨next, (le_iff_units_le number (isNaN_of_isFinite next)).mpr grown, ?_⟩
    have sum := natAbs_units_le next
    refine isFinite_add next ((isFinite_neg x).trans finite) ?_
    rw [units_neg]
    omega

/-- A range with a finite upper end alone reaches down to a finite number. -/
theorem openBelow_range (finite : x.isFinite = true) :
    boundedRange (openBelow x) x = .ok (openBelow x, x) := by
  have own := natAbs_units_le finite
  refine boundedRange_eq_ok.mpr ⟨?_, rfl, rfl⟩
  have number := isNaN_of_isFinite finite
  have zeroUnits : Binary64.zero.units = 0 := rfl
  unfold openBelow
  split
  next above =>
    refine ⟨rfl, finite, above, isFinite_add finite rfl ?_⟩
    rw [units_neg, zeroUnits]
    omega
  next below =>
    rw [le_iff_units_le rfl number, zeroUnits, not_le] at below
    have minusOne : Binary64.one.neg.isFinite = true := rfl
    have before : (x.sub .one).isFinite = true := by
      refine isFinite_add finite minusOne ?_
      rw [units_neg, units_one]
      omega
    have shrunk : (x.sub .one).units ≤ x.units := by
      refine units_add_le finite minusOne finite ?_
      rw [units_neg, units_one]
      omega
    refine ⟨before, finite, (le_iff_units_le (isNaN_of_isFinite before) number).mpr shrunk, ?_⟩
    have sum := natAbs_units_le before
    refine isFinite_add finite ((isFinite_neg _).trans before) ?_
    rw [units_neg]
    omega

end Open

/-- The finite numbers that meet all bounds are those between two numbers. -/
def SpannedBy (bounds : NumericBounds) (low high : Binary64) : Prop :=
  ∀ x : Binary64, x.isFinite = true →
    (bounds.AdmitsNumber x ↔ low.le x = true ∧ x.le high = true)

theorem spannedBy {low high : Binary64} (from_ : NumbersFrom low bounds.MeetsLower)
    (upTo : NumbersUpTo high bounds.MeetsUpper) : bounds.SpannedBy low high := by
  intro x finite
  have number := isNaN_of_isFinite finite
  rw [le_iff_units_le from_.number number, le_iff_units_le number upTo.number]
  exact and_congr (from_.holds_iff x finite) (upTo.holds_iff x finite)

/-- Two pairs of ends of the same numbers are equally far apart. -/
theorem isFinite_sub_congr {low high least most : Binary64} (first : low.isFinite = true)
    (last : high.isFinite = true) (finite : least.isFinite = true) (other : most.isFinite = true)
    (below : low.units = least.units) (above : high.units = most.units) :
    (high.sub low).isFinite = (most.sub least).isFinite := by
  rw [sub, sub, add_of_isFinite last ((isFinite_neg low).trans first),
    add_of_isFinite other ((isFinite_neg least).trans finite), units_neg, units_neg, below, above]
  unfold ofSignedUnits
  split <;> rfl

/-! ## Bounds on both sides, and on one -/

section Results

variable (finite : ∀ bound, bounds.Declares bound → bound.isFinite = true)

include finite

theorem numberRange_of_both (lower : bounds.LowerInForce) (upper : bounds.UpperInForce) :
    ∃ low high, bounds.numberRange = boundedRange low high ∧
      NumbersFrom low bounds.MeetsLower ∧ NumbersUpTo high bounds.MeetsUpper := by
  obtain ⟨low, given, from_⟩ := exists_lowest finite lower
  obtain ⟨high, other, upTo⟩ := exists_highest finite upper
  exact ⟨low, high, by rw [numberRange_eq, given, other], from_, upTo⟩

/-- The numbers of a range meet all bounds. -/
theorem numberRange_admits {low high : Binary64} (range : bounds.numberRange = .ok (low, high))
    {x : Binary64} (number : x.isFinite = true) (below : low.le x = true) (above : x.le high = true) :
    bounds.AdmitsNumber x := by
  by_cases lower : bounds.LowerInForce
  · by_cases upper : bounds.UpperInForce
    · obtain ⟨_, _, same, from_, upTo⟩ := numberRange_of_both finite lower upper
      obtain ⟨-, rfl, rfl⟩ := boundedRange_eq_ok.mp (same.symm.trans range)
      exact (spannedBy from_ upTo x number).mpr ⟨below, above⟩
    · obtain ⟨_, given, from_⟩ := exists_lowest finite lower
      rw [numberRange_eq, given, show bounds.highest = none from side_eq_none.mpr upper] at range
      obtain ⟨-, rfl, -⟩ := boundedRange_eq_ok.mp range
      exact ⟨(from_.holds_iff x number).mpr (units_le_units below), meetsSide_of_not_inForce upper⟩
  · by_cases upper : bounds.UpperInForce
    · obtain ⟨_, given, upTo⟩ := exists_highest finite upper
      rw [numberRange_eq, given, show bounds.lowest = none from side_eq_none.mpr lower] at range
      obtain ⟨-, -, rfl⟩ := boundedRange_eq_ok.mp range
      exact ⟨meetsSide_of_not_inForce lower, (upTo.holds_iff x number).mpr (units_le_units above)⟩
    · exact ⟨meetsSide_of_not_inForce lower, meetsSide_of_not_inForce upper⟩

/-- With bounds on both sides a range is refused where no number meets them or the width overflows. -/
theorem numberRange_eq_error (lower : bounds.LowerInForce) (upper : bounds.UpperInForce) :
    (∃ reason, bounds.numberRange = .error reason) ↔
      (¬ ∃ x, x.isFinite = true ∧ bounds.AdmitsNumber x) ∨
      ∃ low high, low.isFinite = true ∧ high.isFinite = true ∧ bounds.SpannedBy low high ∧
        (high.sub low).isFinite = false := by
  obtain ⟨low, high, same, from_, upTo⟩ := numberRange_of_both finite lower upper
  have spanned := spannedBy from_ upTo
  rw [same]
  constructor
  · rintro ⟨reason, refused⟩
    refine or_iff_not_imp_left.mpr fun admitted => ?_
    obtain ⟨x, number, meetsLower, meetsUpper⟩ := not_not.mp admitted
    have first := from_.isFinite number meetsLower
    have last := upTo.isFinite number meetsUpper
    refine ⟨low, high, first, last, spanned, Bool.eq_false_iff.mpr fun width => ?_⟩
    obtain ⟨below, above⟩ := (spanned x number).mp ⟨meetsLower, meetsUpper⟩
    have ordered : low.le high = true := (le_iff_units_le from_.number upTo.number).mpr
      ((units_le_units below).trans (units_le_units above))
    cases refused.symm.trans (boundedRange_eq_ok.mpr ⟨⟨first, last, ordered, width⟩, rfl, rfl⟩)
  · intro refused
    cases range : boundedRange low high with
    | error reason => exact ⟨reason, rfl⟩
    | ok ends =>
      exfalso
      obtain ⟨⟨first, last, ordered, width⟩, -⟩ := boundedRange_eq_ok.mp range
      have least : bounds.AdmitsNumber low :=
        (spanned low first).mpr ⟨(le_iff_units_le from_.number from_.number).mpr le_rfl, ordered⟩
      have most : bounds.AdmitsNumber high :=
        (spanned high last).mpr ⟨ordered, (le_iff_units_le upTo.number upTo.number).mpr le_rfl⟩
      rcases refused with none | ⟨least', most', first', last', spanned', overflow⟩
      · exact none ⟨low, first, least⟩
      · -- Both pairs span the same numbers, and there are some.
        obtain ⟨lowFrom, lowUpTo⟩ := (spanned' low first).mp least
        obtain ⟨highFrom, highUpTo⟩ := (spanned' high last).mp most
        have number := isNaN_of_isFinite first'
        have other := isNaN_of_isFinite last'
        have ordered' : least'.le most' = true := (le_iff_units_le number other).mpr
          ((units_le_units lowFrom).trans (units_le_units lowUpTo))
        have own := (spanned least' first').mp
          ((spanned' least' first').mpr ⟨(le_iff_units_le number number).mpr le_rfl, ordered'⟩)
        have own' := (spanned most' last').mp
          ((spanned' most' last').mpr ⟨ordered', (le_iff_units_le other other).mpr le_rfl⟩)
        have below := (units_le_units own.1).antisymm (units_le_units lowFrom)
        have above := (units_le_units highUpTo).antisymm (units_le_units own'.2)
        rw [isFinite_sub_congr first last first' last' below above, overflow] at width
        cases width

/-- With bounds on one side at most a range is refused only where no number meets them. -/
theorem not_admitsNumber_of_numberRange_eq_error
    (open_ : ¬ (bounds.LowerInForce ∧ bounds.UpperInForce)) {reason : InvalidReason}
    (refused : bounds.numberRange = .error reason) :
    ¬ ∃ x, x.isFinite = true ∧ bounds.AdmitsNumber x := by
  rintro ⟨x, number, meetsLower, meetsUpper⟩
  by_cases lower : bounds.LowerInForce
  · have upper : ¬ bounds.UpperInForce := fun upper => open_ ⟨lower, upper⟩
    obtain ⟨low, given, from_⟩ := exists_lowest finite lower
    rw [numberRange_eq, given, show bounds.highest = none from side_eq_none.mpr upper] at refused
    cases refused.symm.trans (openAbove_range (from_.isFinite number meetsLower))
  · rw [numberRange_eq, show bounds.lowest = none from side_eq_none.mpr lower] at refused
    by_cases upper : bounds.UpperInForce
    · obtain ⟨high, given, upTo⟩ := exists_highest finite upper
      rw [given] at refused
      cases refused.symm.trans (openBelow_range (upTo.isFinite number meetsUpper))
    · rw [show bounds.highest = none from side_eq_none.mpr upper] at refused
      have whole : boundedRange .zero .one = .ok (.zero, .one) :=
        boundedRange_eq_ok.mpr ⟨by decide +kernel, rfl, rfl⟩
      cases refused.symm.trans whole

end Results

/-- The ends of a range are finite and in order, at a finite distance, and every number between them
meets the bounds. With bounds on both sides the range holds all finite numbers that meet them, and it
is refused exactly where there are none or its width overflows; otherwise it is refused only where
there are none. Exclusive bounds become adjacent numbers. -/
theorem numberRange_tight (finite : ∀ bound, bounds.Declares bound → bound.isFinite = true) :
    (∀ low high, bounds.numberRange = .ok (low, high) →
      low.isFinite = true ∧ high.isFinite = true ∧ low.le high = true ∧
        (high.sub low).isFinite = true ∧
        ∀ x, low.le x = true → x.le high = true → bounds.AdmitsNumber x) ∧
    (bounds.LowerInForce → bounds.UpperInForce →
      (∀ low high, bounds.numberRange = .ok (low, high) →
        ∀ x, x.isFinite = true → bounds.AdmitsNumber x → low.le x = true ∧ x.le high = true) ∧
      ((∃ reason, bounds.numberRange = .error reason) ↔
        (¬ ∃ x, x.isFinite = true ∧ bounds.AdmitsNumber x) ∨
        ∃ low high, low.isFinite = true ∧ high.isFinite = true ∧ bounds.SpannedBy low high ∧
          (high.sub low).isFinite = false)) ∧
    (¬ (bounds.LowerInForce ∧ bounds.UpperInForce) →
      (∃ reason, bounds.numberRange = .error reason) →
        ¬ ∃ x, x.isFinite = true ∧ bounds.AdmitsNumber x) ∧
    ∀ x y : Binary64, x.isFinite = true → y.isNaN = false →
      (x.lt y = true ↔ x.nextUp.le y = true) ∧ (y.lt x = true ↔ y.le x.nextDown = true) := by
  refine ⟨fun low high range => ?_, fun lower upper => ⟨fun low high range x number => ?_, ?_⟩, ?_, ?_⟩
  · obtain ⟨first, last, ordered, width⟩ : low.isFinite = true ∧ high.isFinite = true ∧
        low.le high = true ∧ (high.sub low).isFinite = true := by
      rw [numberRange_eq] at range
      split at range <;> obtain ⟨ends, rfl, rfl⟩ := boundedRange_eq_ok.mp range <;> exact ends
    exact ⟨first, last, ordered, width, fun x below above =>
      numberRange_admits finite range (isFinite_of_between below above first last) below above⟩
  · obtain ⟨_, _, same, from_, upTo⟩ := numberRange_of_both finite lower upper
    obtain ⟨-, rfl, rfl⟩ := boundedRange_eq_ok.mp (same.symm.trans range)
    exact (spannedBy from_ upTo x number).mp
  · exact numberRange_eq_error finite lower upper
  · rintro open_ ⟨reason, refused⟩
    exact not_admitsNumber_of_numberRange_eq_error finite open_ refused
  · exact fun x y number other =>
      ⟨lt_iff_nextUp_le number other, lt_iff_le_nextDown number other⟩

/-! Strict bounds across zero and below one, the whole range of finite numbers, whose width
overflows, and a strict bound at the greatest number. -/

/-- The greatest finite number. -/
def greatest : Binary64 := .ofMagnitude false (infiniteMagnitude - 1)

def openUnit : NumericBounds :=
  ⟨some Binary64.zero.neg, some greatest, some (.flag true), some (.limit .one), none⟩

def allNumbers : NumericBounds := ⟨some greatest.neg, some greatest, none, none, none⟩

def aboveGreatest : NumericBounds := ⟨none, none, some (.limit greatest), some (.flag true), none⟩

theorem declared_isFinite
    (given : bounds = openUnit ∨ bounds = allNumbers ∨ bounds = aboveGreatest)
    (bound : Binary64) (declared : bounds.Declares bound) : bound.isFinite = true := by
  have limits : bound = Binary64.zero.neg ∨ bound = greatest ∨ bound = .one ∨
      bound = greatest.neg := by
    rcases given with rfl | rfl | rfl <;> rcases declared with same | same | same | same <;>
      cases same <;> simp
  rcases limits with rfl | rfl | rfl | rfl <;> decide +kernel

theorem openUnit_tight :
    (openUnit.numberRange = .ok (.ofMagnitude false 1, Binary64.one.nextDown) ∧
      ∀ x, x.isFinite = true → (openUnit.AdmitsNumber x ↔
        Binary64.le (.ofMagnitude false 1) x = true ∧ x.le Binary64.one.nextDown = true)) ∧
    ((∃ reason, allNumbers.numberRange = .error reason) ∧
      ∃ low high, allNumbers.SpannedBy low high ∧ (high.sub low).isFinite = false) ∧
    ((∃ reason, aboveGreatest.numberRange = .error reason) ∧
      ¬ ∃ x, x.isFinite = true ∧ aboveGreatest.AdmitsNumber x) := by
  have range : openUnit.numberRange = .ok (.ofMagnitude false 1, Binary64.one.nextDown) := by
    decide +kernel
  have wide : allNumbers.numberRange = .error (.infiniteNumberRange greatest.neg greatest) := by
    decide +kernel
  have empty : aboveGreatest.numberRange = .error (.infiniteNumberRange .infinity
      (Binary64.infinity.add .one)) := by decide +kernel
  refine ⟨⟨range, fun x number => ?_⟩, ⟨⟨_, wide⟩, ?_⟩, ⟨_, empty⟩, ?_⟩
  · have tight := numberRange_tight (declared_isFinite (.inl rfl))
    obtain ⟨-, -, -, -, admits⟩ := tight.1 _ _ range
    have holds := (tight.2.1 (.inl ⟨_, rfl⟩) (.inl ⟨_, rfl⟩)).1 _ _ range
    exact ⟨holds x number, fun between => admits x between.1 between.2⟩
  · have tight := numberRange_tight (declared_isFinite (.inr (.inl rfl)))
    have refused := (tight.2.1 (.inl ⟨_, rfl⟩) (.inl ⟨_, rfl⟩)).2.mp ⟨_, wide⟩
    rcases refused with none | ⟨low, high, -, -, spanned, overflow⟩
    · -- Zero meets both bounds.
      refine (none ⟨.zero, rfl, ?_⟩).elim
      constructor <;> constructor <;> rintro _ ⟨⟩ <;> decide +kernel
    · exact ⟨low, high, spanned, overflow⟩
  · have tight := numberRange_tight (declared_isFinite (.inr (.inr rfl)))
    refine tight.2.2.1 ?_ ⟨_, empty⟩
    rintro ⟨-, ⟨_, ⟨⟩⟩ | ⟨_, ⟨⟩⟩⟩

end NumericBounds

end SchemaSampler
