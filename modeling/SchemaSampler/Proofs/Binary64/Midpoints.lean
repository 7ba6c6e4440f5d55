import SchemaSampler.Proofs.Binary64.Whole
import SchemaSampler.Binary64.Decimal

/-!
# Midpoints between binary64 numbers

Rounding takes a quotient of units to the nearest magnitude. What it takes to a magnitude or a
lesser one ends at the midpoint to the next magnitude, which itself goes to the even one of the two.
So rounding is known from its midpoints, and the reading interval of a magnitude holds exactly the
quotients that are rounded to it.

Results:
1. `nearestMagnitude_le_iff`: rounding and midpoints.
2. `nearestMagnitude_eq_iff`: rounding and reading intervals.
3. `nearestMagnitude_mono_of_quotient`: greater quotients have greater magnitudes.
4. `nearestMagnitude_error`: how far rounding moves a quotient.
-/

namespace SchemaSampler

namespace Binary64

/-! ## Quotients rounded to whole numbers -/

theorem roundHalfEven_mono {num larger : Nat} (den : Nat) (ordered : num ≤ larger) :
    roundHalfEven num den ≤ roundHalfEven larger den := by
  have quotients : num / den ≤ larger / den := Nat.div_le_div_right ordered
  unfold roundHalfEven
  dsimp only
  rcases quotients.lt_or_eq with below | same
  · -- The lesser value is rounded to the next quotient at most.
    split_ifs <;> omega
  · have split := Nat.div_add_mod num den
    have splitLarger := Nat.div_add_mod larger den
    rw [← same] at splitLarger ⊢
    split_ifs <;> omega

/-- Half a divisor is the furthest that rounding moves, and only to an even number. -/
theorem roundHalfEven_near (num : Nat) {den : Nat} (positive : 0 < den) :
    (2 * num < (2 * roundHalfEven num den + 1) * den ∨
      roundHalfEven num den % 2 = 0 ∧ 2 * num = (2 * roundHalfEven num den + 1) * den) ∧
    (2 * roundHalfEven num den * den < 2 * num + den ∨
      roundHalfEven num den % 2 = 0 ∧ 2 * roundHalfEven num den * den = 2 * num + den) := by
  have split := Nat.div_add_mod' num den
  have remainder := Nat.mod_lt num positive
  have down : (2 * (num / den) + 1) * den = 2 * (num / den * den) + den := by ring
  have up : (2 * (num / den + 1) + 1) * den = 2 * (num / den * den) + 3 * den := by ring
  have own : 2 * (num / den) * den = 2 * (num / den * den) := by ring
  have next : 2 * (num / den + 1) * den = 2 * (num / den * den) + 2 * den := by ring
  unfold roundHalfEven
  dsimp only
  split_ifs with below above
  · omega
  · omega
  · -- A tie goes to the even one of the two quotients.
    rcases Nat.mod_two_eq_zero_or_one (num / den) with even | odd
    · simp only [even, Nat.add_zero, true_and]
      omega
    · simp only [odd]
      omega

/-! ## Neighbouring magnitudes -/

/-- The next magnitude is one unit of the significand away, or further where the exponent ends. -/
theorem le_unitsOf_succ {significand : Nat} (exponent : Nat) (short : significand ≤ 2 ^ 53)
    (normal : exponent = 0 ∨ leadingBit ≤ significand) :
    (significand + 1) * 2 ^ exponent ≤ unitsOf (exponent * leadingBit + significand + 1) := by
  rcases Nat.lt_or_eq_of_le short with below | rfl
  · rw [Nat.add_assoc, unitsOf_shifted exponent (Nat.succ_le_of_lt below) (normal.imp_right
      fun least => least.trans (Nat.le_succ _))]
  · have moved : exponent * leadingBit + 2 ^ 53 + 1 =
        (exponent + 1) * leadingBit + (leadingBit + 1) := by
      unfold leadingBit
      omega
    have doubled : (leadingBit + 1) * 2 ^ (exponent + 1) = (leadingBit + 1) * 2 * 2 ^ exponent := by
      ring
    rw [moved, unitsOf_shifted (exponent + 1) (by decide) (.inr (Nat.le_succ _)), doubled]
    exact Nat.mul_le_mul_right _ (by decide)

/-! ## Midpoints -/

/-- The quotient is below the midpoint between the magnitude and the next one, or on it and the
magnitude is even. -/
def BelowMidpoint (magnitude num den : Nat) : Prop :=
  2 * num < (unitsOf magnitude + unitsOf (magnitude + 1)) * den ∨
    magnitude % 2 = 0 ∧ 2 * num = (unitsOf magnitude + unitsOf (magnitude + 1)) * den

variable {num den : Nat}

theorem BelowMidpoint.mono {magnitude greater : Nat} (below : BelowMidpoint magnitude num den)
    (positive : 0 < den) (ordered : magnitude ≤ greater) : BelowMidpoint greater num den := by
  rcases Nat.eq_or_lt_of_le ordered with rfl | less
  · exact below
  · have own := unitsOf_strictMono less
    have next := unitsOf_strictMono (Nat.succ_lt_succ less)
    have midpoints : (unitsOf magnitude + unitsOf (magnitude + 1)) * den <
        (unitsOf greater + unitsOf (greater + 1)) * den :=
      Nat.mul_lt_mul_of_pos_right (Nat.add_lt_add own next) positive
    refine .inl (Nat.lt_of_le_of_lt ?_ midpoints)
    rcases below with below | ⟨-, same⟩
    · exact below.le
    · exact same.le

/-- The significand and the exponent that rounding finds. -/
theorem exists_nearestMagnitude_eq (num : Nat) {den : Nat} (positive : 0 < den) :
    ∃ exponent significand, nearestMagnitude num den = exponent * leadingBit + significand ∧
      significand = roundHalfEven num (den * 2 ^ exponent) ∧ significand ≤ 2 ^ 53 ∧
      (exponent = 0 ∨ leadingBit ≤ significand ∧ leadingBit * 2 ^ exponent * den ≤ num) := by
  refine ⟨(num / den).log2 - 52, roundHalfEven num (den * 2 ^ ((num / den).log2 - 52)), ?_, rfl, ?_⟩
  · rw [nearestMagnitude, Nat.shiftLeft_eq]
  generalize found : (num / den).log2 - 52 = exponent
  have unit : 0 < den * 2 ^ exponent := Nat.mul_pos positive (Nat.two_pow_pos exponent)
  constructor
  · have short : num / den < 2 ^ (53 + exponent) :=
      Nat.lt_log2_self.trans_le (Nat.pow_le_pow_right (by decide) (by omega))
    have bound : num ≤ 2 ^ 53 * (den * 2 ^ exponent) := by
      have product := (Nat.div_lt_iff_lt_mul positive).mp short
      calc num ≤ 2 ^ (53 + exponent) * den := product.le
        _ = 2 ^ 53 * (den * 2 ^ exponent) := by rw [Nat.pow_add]; ring
    exact (roundHalfEven_mono _ bound).trans_eq (roundHalfEven_mul unit _)
  · rcases Nat.eq_zero_or_pos exponent with zero | some
    · exact .inl zero
    · have nonzero : num / den ≠ 0 := by
        intro zero
        rw [zero, Nat.log2_zero] at found
        omega
      have long : 2 ^ (52 + exponent) ≤ num / den :=
        (Nat.pow_le_pow_right (by decide) (by omega)).trans (Nat.log2_self_le nonzero)
      have bound : leadingBit * 2 ^ exponent * den ≤ num := by
        rw [Nat.pow_add] at long
        exact (Nat.le_div_iff_mul_le positive).mp long
      refine .inr ⟨?_, bound⟩
      have aligned : leadingBit * (den * 2 ^ exponent) ≤ num := by
        rwa [Nat.mul_comm den, ← Nat.mul_assoc]
      exact (roundHalfEven_mul unit _).symm.trans_le (roundHalfEven_mono _ aligned)

theorem belowMidpoint_nearestMagnitude (num : Nat) {den : Nat} (positive : 0 < den) :
    BelowMidpoint (nearestMagnitude num den) num den := by
  obtain ⟨exponent, significand, found, rounded, short, normal⟩ :=
    exists_nearestMagnitude_eq num positive
  have unit : 0 < den * 2 ^ exponent := Nat.mul_pos positive (Nat.two_pow_pos exponent)
  have normal := normal.imp_right And.left
  have near := (roundHalfEven_near num unit).1
  rw [← rounded] at near
  have own := unitsOf_shifted exponent short normal
  have next := le_unitsOf_succ exponent short normal
  have midpoint : (2 * significand + 1) * (den * 2 ^ exponent) ≤
      (unitsOf (nearestMagnitude num den) + unitsOf (nearestMagnitude num den + 1)) * den := by
    rw [found, own]
    calc (2 * significand + 1) * (den * 2 ^ exponent)
        = (significand * 2 ^ exponent + (significand + 1) * 2 ^ exponent) * den := by ring
      _ ≤ _ := Nat.mul_le_mul_right _ (Nat.add_le_add_left next _)
  have parity : nearestMagnitude num den % 2 = significand % 2 := by
    rw [found]
    unfold leadingBit
    omega
  rcases near with below | ⟨even, same⟩
  · exact .inl (below.trans_le midpoint)
  · rcases Nat.lt_or_eq_of_le (same.trans_le midpoint) with below | tie
    · exact .inl below
    · exact .inr ⟨parity.trans even, tie⟩

theorem not_belowMidpoint_of_lt_nearestMagnitude {magnitude : Nat} (positive : 0 < den)
    (less : magnitude < nearestMagnitude num den) : ¬ BelowMidpoint magnitude num den := by
  obtain ⟨before, known⟩ : ∃ before, nearestMagnitude num den = before + 1 :=
    ⟨_, (Nat.succ_pred_eq_of_pos (Nat.zero_lt_of_lt less)).symm⟩
  intro below
  have below : BelowMidpoint before num den := below.mono positive (by omega)
  obtain ⟨exponent, significand, found, rounded, short, normal⟩ :=
    exists_nearestMagnitude_eq num positive
  have unit : 0 < den * 2 ^ exponent := Nat.mul_pos positive (Nat.two_pow_pos exponent)
  have own := unitsOf_shifted exponent short (normal.imp_right And.left)
  rw [← found, known] at own
  unfold BelowMidpoint at below
  by_cases least : exponent ≠ 0 ∧ significand = leadingBit
  · -- At the least significand of its exponent, the quotient is not below the magnitude.
    obtain ⟨some, rfl⟩ := least
    have bound := (normal.resolve_left some).2
    have step : unitsOf before < unitsOf (before + 1) := unitsOf_lt_succ before
    have product := Nat.mul_lt_mul_of_pos_right step positive
    rw [Nat.add_mul, own] at below
    rw [own] at product
    omega
  · obtain ⟨lower, rfl⟩ : ∃ lower, significand = lower + 1 := by
      refine ⟨significand - 1, ?_⟩
      rcases normal with zero | ⟨above, -⟩
      · rw [zero] at found
        omega
      · unfold leadingBit at above
        omega
    have previous : unitsOf before = lower * 2 ^ exponent := by
      have place : before = exponent * leadingBit + lower := by omega
      rw [place]
      refine unitsOf_shifted exponent (by omega) ?_
      rcases normal with zero | ⟨above, -⟩
      · exact .inl zero
      · by_cases zero : exponent = 0
        · exact .inl zero
        · exact .inr (Nat.le_of_lt_succ (lt_of_le_of_ne above fun same => least ⟨zero, same.symm⟩))
    have midpoint : (unitsOf before + unitsOf (before + 1)) * den + den * 2 ^ exponent =
        2 * (lower + 1) * (den * 2 ^ exponent) := by
      rw [own, previous]
      ring
    have parity : (before + 1) % 2 = (lower + 1) % 2 := by
      rw [← known, found]
      unfold leadingBit
      omega
    have near := (roundHalfEven_near num unit).2
    rw [← rounded] at near
    omega

/-- What is rounded to a magnitude or a lesser one ends at the midpoint to the next magnitude. -/
theorem nearestMagnitude_le_iff {magnitude : Nat} (positive : 0 < den) :
    nearestMagnitude num den ≤ magnitude ↔ BelowMidpoint magnitude num den := by
  constructor
  · exact (belowMidpoint_nearestMagnitude num positive).mono positive
  · intro below
    by_contra above
    exact not_belowMidpoint_of_lt_nearestMagnitude positive (Nat.lt_of_not_le above) below

/-- The quotient lies in the interval of those that read as its magnitude. -/
def ReadingInterval.Contains (interval : ReadingInterval) (num den : Nat) : Prop :=
  if interval.closed then interval.lower * den ≤ 2 * num ∧ 2 * num ≤ interval.upper * den
  else interval.lower * den < 2 * num ∧ 2 * num < interval.upper * den

theorem nearestMagnitude_eq_iff {magnitude : Nat} (positive : 0 < den) :
    nearestMagnitude num den = magnitude ↔ (readingInterval magnitude).Contains num den := by
  have upper : nearestMagnitude num den ≤ magnitude ↔
      BelowMidpoint magnitude num den := nearestMagnitude_le_iff positive
  unfold BelowMidpoint at upper
  cases magnitude with
  | zero =>
    have closed : (readingInterval 0).Contains num den ↔
        0 * den ≤ 2 * num ∧ 2 * num ≤ (unitsOf 0 + unitsOf (0 + 1)) * den := Iff.rfl
    rw [closed]
    omega
  | succ before =>
    have lower : nearestMagnitude num den ≤ before ↔
        BelowMidpoint before num den := nearestMagnitude_le_iff positive
    unfold BelowMidpoint at lower
    unfold readingInterval ReadingInterval.Contains
    dsimp only
    rw [Nat.add_sub_cancel]
    -- Of the two ends, the interval has those with an even magnitude.
    rcases Nat.mod_two_eq_zero_or_one before with even | odd
    · rw [if_neg (by rw [beq_iff_eq]; omega)]
      omega
    · rw [if_pos (by rw [beq_iff_eq]; omega)]
      omega

/-! ## The order of quotients -/

/-- A greater quotient is rounded to a greater magnitude. -/
theorem nearestMagnitude_mono_of_quotient {larger unit : Nat} (positive : 0 < den)
    (other : 0 < unit) (ordered : num * unit ≤ larger * den) :
    nearestMagnitude num den ≤ nearestMagnitude larger unit := by
  rw [nearestMagnitude_le_iff positive]
  have below := belowMidpoint_nearestMagnitude larger other
  unfold BelowMidpoint at below ⊢
  generalize unitsOf (nearestMagnitude larger unit) +
    unitsOf (nearestMagnitude larger unit + 1) = midpoint at below ⊢
  have scaled : 2 * num * unit ≤ 2 * larger * den := by
    rw [Nat.mul_assoc, Nat.mul_assoc]
    exact Nat.mul_le_mul_left 2 ordered
  rcases below with below | ⟨even, same⟩
  · refine .inl (Nat.lt_of_mul_lt_mul_right (a := unit) ?_)
    calc 2 * num * unit ≤ 2 * larger * den := scaled
      _ < midpoint * unit * den := Nat.mul_lt_mul_of_pos_right below positive
      _ = midpoint * den * unit := Nat.mul_right_comm _ _ _
  · refine (Nat.lt_or_eq_of_le (Nat.le_of_mul_le_mul_right ?_ other)).imp_right fun tie =>
      ⟨even, tie⟩
    calc 2 * num * unit ≤ 2 * larger * den := scaled
      _ = midpoint * unit * den := by rw [same]
      _ = midpoint * den * unit := Nat.mul_right_comm _ _ _

/-- Equal quotients are rounded to the same magnitude. -/
theorem nearestMagnitude_mul_right {factor : Nat} (positive : 0 < den) (some : 0 < factor) :
    nearestMagnitude (num * factor) (den * factor) = nearestMagnitude num den := by
  have scaled : 0 < den * factor := Nat.mul_pos positive some
  have same : num * factor * den = num * (den * factor) := by ring
  exact Nat.le_antisymm (nearestMagnitude_mono_of_quotient scaled positive same.le)
    (nearestMagnitude_mono_of_quotient positive scaled same.ge)

/-- What is at most a magnitude is not rounded above it. -/
theorem nearestMagnitude_le_of_le {magnitude : Nat} (positive : 0 < den)
    (below : num ≤ unitsOf magnitude * den) : nearestMagnitude num den ≤ magnitude := by
  rw [← nearestMagnitude_unitsOf magnitude]
  exact nearestMagnitude_mono_of_quotient positive Nat.one_pos (by rwa [Nat.mul_one])

/-- What is at least a magnitude is not rounded below it. -/
theorem le_nearestMagnitude_of_le {magnitude : Nat} (positive : 0 < den)
    (above : unitsOf magnitude * den ≤ num) : magnitude ≤ nearestMagnitude num den := by
  rw [← nearestMagnitude_unitsOf magnitude]
  exact nearestMagnitude_mono_of_quotient Nat.one_pos positive (by rwa [Nat.mul_one])

/-- The quotient of units is rounded to the number, whatever its sign is. -/
def Rounds (x : Binary64) (num den : Nat) : Prop :=
  match x with
  | .nan => False
  | .signed _ magnitude _ => (readingInterval magnitude).Contains num den

theorem rounds_ofMagnitude {magnitude : Nat} (negative : Bool) (positive : 0 < den)
    (bounded : magnitude ≤ infiniteMagnitude) :
    (ofMagnitude negative magnitude).Rounds num den ↔ nearestMagnitude num den = magnitude := by
  rw [nearestMagnitude_eq_iff positive, ofMagnitude, Rounds, Nat.min_eq_left bounded]

/-! ## Errors -/

/-- A magnitude with its leading bit and the next one are a unit of the significand apart. -/
theorem leadingBit_mul_unitsOf_succ_le {magnitude : Nat} (normal : leadingBit ≤ magnitude) :
    leadingBit * unitsOf (magnitude + 1) ≤ (leadingBit + 1) * unitsOf magnitude := by
  rcases magnitude_cases magnitude with subnormal | ⟨exponent, fraction, below, rfl⟩
  · exact absurd normal (Nat.not_le_of_lt subnormal)
  · have place : (exponent + 1) * leadingBit + fraction =
        exponent * leadingBit + (leadingBit + fraction) := by ring
    have short : leadingBit + fraction + 1 ≤ 2 ^ 53 := Nat.add_lt_add_left below leadingBit
    have least : leadingBit ≤ leadingBit + fraction := Nat.le_add_right _ _
    rw [place, Nat.add_assoc, unitsOf_shifted exponent (Nat.le_of_lt short) (.inr least),
      unitsOf_shifted exponent short (.inr (Nat.le_add_right_of_le least)),
      ← Nat.mul_assoc, ← Nat.mul_assoc]
    refine Nat.mul_le_mul_right _ ?_
    rw [Nat.mul_add_one, Nat.add_one_mul]
    exact Nat.add_le_add_left least _

theorem unitsOf_succ_le (magnitude : Nat) :
    unitsOf (magnitude + 1) ≤ 2 * unitsOf magnitude + 1 := by
  by_cases normal : leadingBit ≤ magnitude
  · have gap := leadingBit_mul_unitsOf_succ_le normal
    have doubled : (leadingBit + 1) * unitsOf magnitude ≤ leadingBit * (2 * unitsOf magnitude) := by
      rw [← Nat.mul_assoc]
      exact Nat.mul_le_mul_right _ (by decide)
    exact (Nat.le_of_mul_le_mul_left (gap.trans doubled) (by decide)).trans (Nat.le_succ _)
  · have subnormal := Nat.lt_of_not_le normal
    have next : unitsOf (magnitude + 1) = (magnitude + 1) * 2 ^ 0 := by
      have shifted : unitsOf (0 * leadingBit + (magnitude + 1)) = (magnitude + 1) * 2 ^ 0 :=
        unitsOf_shifted 0 (by unfold leadingBit at subnormal; omega) (.inl rfl)
      rwa [Nat.zero_mul, Nat.zero_add] at shifted
    rw [next, unitsOf_of_lt subnormal]
    omega

/-- Rounding does not more than double a quotient. -/
theorem unitsOf_nearestMagnitude_mul_le (num : Nat) {den : Nat} (positive : 0 < den) :
    unitsOf (nearestMagnitude num den) * den ≤ 2 * num := by
  cases found : nearestMagnitude num den with
  | zero => simp [unitsOf_zero]
  | succ before =>
    have less : before < nearestMagnitude num den := by omega
    have above := not_belowMidpoint_of_lt_nearestMagnitude positive less
    unfold BelowMidpoint at above
    rw [Nat.add_mul] at above
    omega

/-- Rounding does not more than halve a count of units. -/
theorem le_unitsOf_nearestMagnitude (units : Nat) :
    units ≤ 2 * unitsOf (nearestMagnitude units 1) := by
  have below := belowMidpoint_nearestMagnitude units Nat.one_pos
  have next := unitsOf_succ_le (nearestMagnitude units 1)
  unfold BelowMidpoint at below
  omega

/-- Rounding moves a quotient by half a unit of the significand at most. -/
theorem nearestMagnitude_error (positive : 0 < den)
    (normal : leadingBit < nearestMagnitude num den) :
    2 * leadingBit * num ≤ (2 * leadingBit + 1) * (unitsOf (nearestMagnitude num den) * den) ∧
      (2 * leadingBit + 1) * (unitsOf (nearestMagnitude num den) * den) ≤
        (2 * leadingBit + 2) * num := by
  have upper := belowMidpoint_nearestMagnitude num positive
  obtain ⟨before, found⟩ : ∃ before, nearestMagnitude num den = before + 1 :=
    ⟨_, (Nat.succ_pred_eq_of_pos (Nat.zero_lt_of_lt normal)).symm⟩
  have less : before < nearestMagnitude num den := by omega
  have lower := not_belowMidpoint_of_lt_nearestMagnitude positive less
  rw [found] at upper normal ⊢
  have gap := Nat.mul_le_mul_right den (leadingBit_mul_unitsOf_succ_le normal.le)
  have gapBefore := Nat.mul_le_mul_right den
    (leadingBit_mul_unitsOf_succ_le (Nat.le_of_lt_succ normal))
  unfold BelowMidpoint at upper lower
  rw [Nat.add_mul] at upper lower
  rw [Nat.mul_assoc, Nat.mul_assoc] at gap gapBefore
  generalize unitsOf before * den = previous at *
  generalize unitsOf (before + 1) * den = own at *
  generalize unitsOf (before + 1 + 1) * den = next at *
  unfold leadingBit at *
  omega

end Binary64

end SchemaSampler
