import SchemaSampler.Proofs.Draw.Multiples
import SchemaSampler.Proofs.Draw.WholeSteps
import SchemaSampler.Proofs.Ranges.LargeBounds

/-!
# Integers with a step

The candidates of an integer node with a step are the multiples of its whole step, and the whole
step is the one of factor one. So a node whose range has the whole step takes it when it is drawn,
provided that it passes the check of the step. When it does not, and nothing else lies in the range,
the node draws it until its attempts are exhausted.

Results:
1. `Multiples.within_whole`: the factors of a range with the whole step.
2. `Generator.draw_whole_factor`: the candidate of factor one.
3. `Generator.exists_offers`: what a node does with its whole step.
4. `Generator.wholeStep_taken_iff`: which whole steps pass.
-/

namespace SchemaSampler

open Binary64

/-! ## Factors -/

theorem checkStep_of_pos {step : Binary64} (finite : step.isFinite = true)
    (positive : 0 < step.units) : checkStep step = .ok () := by
  have above : step.le .zero = false := by
    rw [Bool.eq_false_iff, Ne, le_iff_units_le (isNaN_of_isFinite finite) rfl]
    exact not_le_of_gt positive
  rw [checkStep, finite, above]
  rfl

/-- The factors of a range around the whole step are around one. -/
theorem Multiples.within_whole {lower upper whole : Binary64} {w : Nat}
    (finite : lower.isFinite = true) (other : upper.isFinite = true) (value : whole.HasValue w)
    (positive : whole.isNegative = false) (some : 1 ≤ w) (below : lower.units ≤ whole.units)
    (above : whole.units ≤ upper.units) :
    ∃ least most : Int, Multiples.within lower upper whole = .ok ⟨whole, least, most⟩ ∧
      least ≤ 1 ∧ 1 ≤ most ∧ (whole.units ≤ lower.units → 1 ≤ least) ∧
      (upper.units ≤ whole.units → most ≤ 1) := by
  have own : whole.units = whole.absUnits := units_of_sign positive rfl
  have large : oneUnits ≤ whole.absUnits := by
    have least : (1 : Int) * oneUnits ≤ w * oneUnits :=
      Int.mul_le_mul_of_nonneg_right (by omega) oneUnits_pos_int.le
    rw [← value.2, own] at least
    omega
  obtain ⟨lowerFinite, lowerBelow, lowerAbove⟩ := div_beside_one finite value.1 positive large
  obtain ⟨upperFinite, upperBelow, upperAbove⟩ := div_beside_one other value.1 positive large
  obtain ⟨least, leastValue, leastBelow, leastAbove⟩ := ceil_beside_one lowerFinite
  obtain ⟨most, mostValue, mostBelow, mostAbove⟩ := floor_beside_one upperFinite
  obtain ⟨leastEnd, leastStart⟩ := leastValue.toInt64_beside_one
  obtain ⟨mostEnd, mostStart⟩ := mostValue.toInt64_beside_one
  have passed : checkStep whole = .ok () := checkStep_of_pos value.1 (by
    rw [own]
    exact_mod_cast oneUnits_pos.trans_le large)
  refine ⟨_, _, ?_, leastEnd (leastBelow (lowerBelow below)),
    mostStart (mostAbove (upperAbove above)),
    fun reached => leastStart (leastAbove (lowerAbove reached)),
    fun reached => mostEnd (mostBelow (upperBelow reached))⟩
  have ordered : least ≤ most :=
    (leastBelow (lowerBelow below)).trans (mostAbove (upperAbove above))
  have stocked : (upper.div whole).floor.lt (lower.div whole).ceil = false := by
    rw [Bool.eq_false_iff, Ne, mostValue.lt_iff leastValue]
    exact not_lt_of_ge ordered
  rw [Multiples.within, passed]
  show (if _ then _ else _ : Except InvalidReason Multiples) = _
  rw [stocked, if_neg Bool.false_ne_true]
  rfl

/-- A range of one integer leaves no choice. -/
theorem Random.integer_self (n : Int) (source : Source) : (Random.integer n n source).1 = n := by
  have offset := Random.offset_lt Nat.one_pos .double source
  have range : (n - n + 1).toNat = 1 := by omega
  have narrow : ¬ (1 = Random.Width.double.count) := by decide
  have drawn : Random.integer n n =
      (do let drawn ← Random.offset .double 1; pure (n + (drawn : Int)) : Random Int) := by
    unfold Random.integer
    dsimp only
    rw [range, if_neg narrow]
  rw [drawn]
  show n + (((Random.offset .double 1 source).1 : Nat) : Int) = n
  omega

theorem Draw.integer_self (n : Int) (cursor : Cursor) :
    ∃ last, Draw.integer n n cursor = (.ok n, last) := by
  refine ⟨_, Prod.ext ?_ rfl⟩
  rw [Draw.integer, if_neg (lt_irrefl n)]
  exact congrArg Except.ok (Random.integer_self n cursor.source)

namespace Generator

/-! ## The candidate of factor one -/

section Candidate

variable {step whole lower upper : Binary64} {w : Nat}

/-- By the factor one the whole step is drawn, as an integer. -/
theorem draw_whole_factor {options : Options} {bodies : Bodies} {low high least most : Int}
    {cursor last : Cursor} (value : whole.HasValue w) (small : (w : Int) ≤ int64Max)
    (drawn : Draw.integer least most cursor = (.ok 1, last)) :
    draw options bodies (.integer low high (some ⟨whole, least, most⟩)) cursor =
      (.ok (.int w), last) := by
  have fits : (whole.isWhole && whole.abs.lt (Binary64.ofInt signBit)) = true := by
    rw [Bool.and_eq_true, isWhole_iff, value.abs.lt_iff hasValue_signBit]
    refine ⟨⟨_, value⟩, ?_⟩
    rw [int64Max] at small
    rw [Nat.abs_cast]
    omega
  have clamped : whole.toInt64 = w := by
    rw [value.toInt64_eq, int64Min]
    omega
  rw [draw_eq, drawWith, drawInteger, drawWholeMultiple, Draw.bind_of_ok drawn, Multiples.value,
    ofInt_one_mul value.1, if_pos fits, clamped]
  rfl

/-- Inside the range the filter only asks whether the whole step passes. -/
theorem admitsWhole_whole (same : whole = .ofInt w) (value : whole.HasValue w)
    (below : lower.le whole = true) (above : whole.le upper = true) :
    admitsWhole lower upper step (.int w) = isMultiple whole step := by
  have isWhole : whole.isWhole = true := isWhole_iff.mpr ⟨_, value⟩
  have read : (Json.int w).toFloat? = some whole := congrArg some same.symm
  rw [admitsWhole, floatPasses, read, Option.map_some, Option.getD_some, isWhole, below, above]
  rfl

end Candidate

/-- Where every candidate is rejected, a run is exhausted. -/
theorem Samples.exhausted_of_rejected {candidate : Draw Json} {admits : Json → Prop}
    {attempts : Nat} {exhausted : SampleError} {start : Cursor}
    {run : Except SampleError Json × Cursor}
    (samples : Samples candidate admits attempts exhausted start run)
    (rejected : ∀ cursor, ∃ value last, candidate cursor = (.ok value, last) ∧ ¬ admits value) :
    ∃ last, run = (.error exhausted, last) := by
  have streams : ∀ count cursor, ∃ values last, Draw.Stream candidate cursor values last ∧
      (∀ value ∈ values, ¬ admits value) ∧ values.length = count := by
    intro count
    induction count with
    | zero => exact fun cursor => ⟨[], cursor, Draw.stream_nil.mpr rfl, nofun, rfl⟩
    | succ count ih =>
      intro cursor
      obtain ⟨value, between, first, refused⟩ := rejected cursor
      obtain ⟨values, last, later, all, counted⟩ := ih between
      exact ⟨value :: values, last, Draw.stream_cons.mpr ⟨between, first, later⟩,
        List.forall_mem_cons.mpr ⟨refused, all⟩, congrArg Nat.succ counted⟩
  obtain ⟨values, last, stream, all, counted⟩ := streams attempts start
  exact ⟨last, (samples.exhausted_iff last).mpr ⟨values, stream, all, counted⟩⟩

/-! ## Nodes -/

section Nodes

variable {step whole : Binary64} {w : Nat}

/-- What an integer node does with a whole step inside its range. -/
structure Offers (bounds : NumericBounds) (step whole : Binary64) (w : Nat) (least most : Int)
    (multiples : Multiples) (generator : Generator) : Prop where
  compiled : integerOf bounds = .ok generator
  within : Multiples.within (.ofInt least) (.ofInt most) whole = .ok multiples
  around : multiples.least ≤ 1 ∧ 1 ≤ multiples.most
  /-- Drawn first, by the factor one, it is taken exactly where it passes. -/
  taken : ∀ (options : Options) (bodies : Bodies) (cursor last : Cursor),
    Draw.integer multiples.least multiples.most cursor = (.ok 1, last) →
    0 < options.limits.maxAttempts →
    (draw options bodies generator cursor = (.ok (.int w), last) ↔ isMultiple whole step = true)
  /-- Alone in the range and not passing, it is drawn and rejected over and over. -/
  exhausted : least = most → isMultiple whole step = false →
    ∀ (options : Options) (bodies : Bodies) (cursor : Cursor), ∃ last,
      draw options bodies generator cursor = (.error (.exhausted options.limits.maxAttempts
        (multipleFragment "integer" step (toString least) (toString most))), last)

theorem exists_offers (found : wholeStep step = .ok whole) (same : whole = .ofInt w)
    (value : whole.HasValue w) (positive : 1 ≤ w) {bounds : NumericBounds} {least most : Int}
    (declared : bounds.multipleOf = some step) (range : bounds.integerRange = .ok (least, most))
    (below : least ≤ w) (above : w ≤ most) :
    ∃ multiples generator, Offers bounds step whole w least most multiples generator := by
  obtain ⟨first, -, last, -, -⟩ := NumericBounds.integerRange_ends range
  have fits : least.natAbs ≤ 2 ^ 63 ∧ most.natAbs ≤ 2 ^ 63 := by
    rw [int64Min] at first
    rw [int64Max] at last
    omega
  have lowerBelow : (Binary64.ofInt least).units ≤ whole.units := same ▸ units_ofInt_mono below
  have upperAbove : whole.units ≤ (Binary64.ofInt most).units := same ▸ units_ofInt_mono above
  obtain ⟨leastFactor, mostFactor, within, leastEnd, mostStart, leastStart, mostEnd⟩ :=
    Multiples.within_whole (isFinite_ofInt fits.1) (isFinite_ofInt fits.2) value
      (same ▸ isNegative_ofInt_natCast w) positive lowerBelow upperAbove
  have admits : admitsWhole (.ofInt least) (.ofInt most) step (.int w) = isMultiple whole step :=
    admitsWhole_whole same value
      ((le_iff_units_le (isNaN_ofInt _) (isNaN_of_isFinite value.1)).mpr lowerBelow)
      ((le_iff_units_le (isNaN_of_isFinite value.1) (isNaN_ofInt _)).mpr upperAbove)
  have samples (options : Options) (bodies : Bodies) (cursor : Cursor) :
      Samples (draw options bodies (.integer least most (some ⟨whole, leastFactor, mostFactor⟩)))
        (fun value => admitsWhole (.ofInt least) (.ofInt most) step value = true)
        options.limits.maxAttempts (.exhausted options.limits.maxAttempts
          (multipleFragment "integer" step (toString least) (toString most))) cursor
        (draw options bodies (.filter (.integer least most (some ⟨whole, leastFactor, mostFactor⟩))
          (multipleFragment "integer" step (toString least) (toString most))
          (admitsWhole (.ofInt least) (.ofInt most) step)) cursor) :=
    filter_samples (fun _ => Iff.rfl) (multiple_unexhausted (.inl ⟨least, most, rfl⟩) _ _) cursor
  have small : (w : Int) ≤ int64Max := above.trans last
  refine ⟨⟨whole, leastFactor, mostFactor⟩, _, (integerOf_eq_ok declared).mpr
    ⟨least, most, whole, _, range, found, within, rfl⟩, within, ⟨leastEnd, mostStart⟩, ?_, ?_⟩
  · intro options bodies cursor last drawn attempts
    refine ((samples options bodies cursor).ok_iff _ _).trans ⟨?_, fun passes => ?_⟩
    · rintro ⟨_, _, -, -, -, -, admitted⟩
      exact admits.symm.trans admitted
    · exact ⟨[], cursor, Draw.stream_nil.mpr rfl, fun _ none => absurd none List.not_mem_nil,
        attempts, draw_whole_factor value small drawn, admits.trans passes⟩
  · intro alone fails options bodies cursor
    -- The whole step is both ends of the range, so one is the only factor.
    obtain rfl : leastFactor = 1 :=
      Int.le_antisymm leastEnd (leastStart (same ▸ units_ofInt_mono (by omega)))
    obtain rfl : mostFactor = 1 :=
      Int.le_antisymm (mostEnd (same ▸ units_ofInt_mono (by omega))) mostStart
    refine (samples options bodies cursor).exhausted_of_rejected fun cursor => ?_
    obtain ⟨last, drawn⟩ := Draw.integer_self 1 cursor
    refine ⟨_, last, draw_whole_factor value small drawn, ?_⟩
    rw [admits, fails]
    exact Bool.false_ne_true

/-- A whole step lies near a multiple of its step, by a scale of the search. It passes the check of
the step exactly where its exact quotient by the step is rounded to the scale, or at the scale one
to the number before one; so an exact multiple passes. A node with the whole step inside its range has
it among its candidates and takes it where it passes; a node of the whole step alone exhausts all
draws where it does not. -/
theorem wholeStep_taken_iff (found : wholeStep step = .ok whole) :
    ∃ scale w : Nat, 1 ≤ scale ∧ scale ≤ maxStepScale ∧ 1 ≤ w ∧ whole.HasValue w ∧
      NearMultiple (w * oneUnits) step.absUnits scale ∧
      (isMultiple whole step = true ↔
        (Binary64.ofInt scale).Rounds (w * oneUnits * oneUnits) step.absUnits ∨
        scale = 1 ∧ Binary64.one.nextDown.Rounds (w * oneUnits * oneUnits) step.absUnits) ∧
      (w * oneUnits = scale * step.absUnits → isMultiple whole step = true) ∧
      ∀ (bounds : NumericBounds) (least most : Int), bounds.multipleOf = some step →
        bounds.integerRange = .ok (least, most) → least ≤ w → w ≤ most →
        ∃ multiples generator, Offers bounds step whole w least most multiples generator := by
  obtain ⟨passed, scale, first, last, wholeAt, -⟩ := wholeStep_eq_ok.mp found
  obtain ⟨finite, above⟩ := checkStep_eq_ok passed
  have upward := isNegative_of_not_le_zero (isNaN_of_isFinite finite) above
  obtain ⟨w, positive, same, value, near⟩ := wholeMultiple?_near finite upward last wholeAt
  have sign : whole.isNegative = false := same ▸ isNegative_ofInt_natCast w
  have units : whole.absUnits = w * oneUnits := by
    have own : whole.units = whole.absUnits := units_of_sign sign rfl
    exact_mod_cast own.symm.trans value.2
  have passes := isMultiple_iff_rounds value.1 sign finite upward (units.symm ▸ near) first
    (last.trans_lt (by decide))
  rw [units] at passes
  refine ⟨scale, w, first, last, positive, value, near, passes, fun multiple => ?_,
    fun bounds least most declared range below above =>
      exists_offers found same value positive declared range below above⟩
  rw [multiple] at passes
  exact passes.mpr (.inl (rounds_of_multiple (last.trans (by decide)) near.step_pos))

/-- The whole step of one tenth is one, which passes and is drawn. -/
theorem tenths_whole_taken : wholeStep tenth = .ok .one ∧ isMultiple .one tenth = true ∧
    integerOf tenths = .ok tenthIntegers ∧
    ∃ last, draw {} [] tenthIntegers ⟨.cycle #[0xFFFFFFFF], 0⟩ = (.ok (.int 1), last) := by
  have found : wholeStep tenth = .ok .one := by decide +kernel
  have passes : isMultiple .one tenth = true := by decide +kernel
  obtain ⟨_, w, -, -, -, value, -, -, -, nodes⟩ := @wholeStep_taken_iff tenth .one found
  obtain rfl : w = 1 := by
    have units := value.2.symm.trans hasValue_one.2
    exact_mod_cast Int.eq_of_mul_eq_mul_right oneUnits_pos_int.ne' units
  obtain ⟨multiples, generator, offers⟩ :=
    nodes tenths 0 1 rfl tenths_integerRange (by decide) (by decide)
  obtain rfl : generator = tenthIntegers :=
    Except.ok.inj (offers.compiled.symm.trans tenthIntegers_built)
  obtain rfl : multiples = ⟨.one, 0, 1⟩ := by
    have within : Multiples.within (.ofInt 0) (.ofInt 1) .one = .ok ⟨.one, 0, 1⟩ := by
      decide +kernel
    exact Except.ok.inj (offers.within.symm.trans within)
  exact ⟨found, passes, offers.compiled, _,
    (offers.taken {} [] _ _ (Prod.ext rfl rfl) (by decide)).mpr passes⟩

/-! Seven is a hundred times the step of seven hundredths, but for an error that the search allows.
The quotient is rounded to the number before a hundred. -/

def sevenHundredths : Binary64 := .ofMagnitude false 0x3FB1EB851EB851EC

def onlySeven : NumericBounds :=
  { minimum := some (.ofInt 7), maximum := some (.ofInt 7), multipleOf := some sevenHundredths }

/-- The multiples before the hundredth one are hundredths apart from whole numbers. -/
theorem wholeStep_sevenHundredths : wholeStep sevenHundredths = .ok (.ofInt 7) := by
  have apart : ∀ scale < 100, 1 ≤ scale →
      let candidate := unitsOf (nearestMagnitude (scale * sevenHundredths.absUnits) 1)
      candidate < candidate % oneUnits * 2 ^ 37 ∧
        candidate < (oneUnits - candidate % oneUnits) * 2 ^ 37 := by
    decide +kernel
  have found : wholeMultiple? sevenHundredths 100 = some (.ofInt 7) := by decide +kernel
  refine wholeStep_eq_ok.mpr ⟨by decide +kernel, 100, by decide, by decide, found,
    fun scale least less => ?_⟩
  obtain ⟨below, above⟩ := apart scale less least
  exact wholeMultiple?_eq_none (by decide +kernel) rfl (less.le.trans (by decide)) rfl below above

/-- Seven is the whole step of seven hundredths, and no multiple of them; a node for it compiles and
never draws it. -/
theorem seven_never_drawn : wholeStep sevenHundredths = .ok (.ofInt 7) ∧
    isMultiple (.ofInt 7) sevenHundredths = false ∧
    onlySeven.multipleOf = some sevenHundredths ∧ onlySeven.integerRange = .ok (7, 7) ∧
    ∃ generator, integerOf onlySeven = .ok generator ∧
      ∀ (options : Options) (bodies : Bodies) (cursor : Cursor), ∃ last,
        draw options bodies generator cursor = (.error (.exhausted options.limits.maxAttempts
          (multipleFragment "integer" sevenHundredths (toString (7 : Int)) (toString (7 : Int)))),
          last) := by
  have found := wholeStep_sevenHundredths
  have fails : isMultiple (.ofInt 7) sevenHundredths = false := by decide +kernel
  have range : onlySeven.integerRange = .ok (7, 7) := by decide +kernel
  have value : (Binary64.ofInt 7).HasValue (7 : Nat) := ⟨by decide +kernel, by decide +kernel⟩
  obtain ⟨multiples, generator, offers⟩ :=
    @exists_offers sevenHundredths _ 7 found rfl value (by decide) onlySeven 7 7 rfl range
      (by decide) (by decide)
  exact ⟨found, fails, rfl, range, generator, offers.compiled, offers.exhausted rfl fails⟩

end Nodes

end Generator

end SchemaSampler
