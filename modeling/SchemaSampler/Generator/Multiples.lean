import SchemaSampler.Error
import SchemaSampler.Random.Uniform

/-!
# Multiples of a step

`Multiples.within` finds the whole factors whose multiples of a step lie in a range, and
`wholeStep` the least whole multiple of a step, by which an integer schema steps. `isMultiple`
allows the quotient to miss a whole number by less than the distance from one to the next
number, as validators do.
-/

namespace SchemaSampler

/-- The multiples `factor * step` for whole factors from `least` to `most`. -/
structure Multiples where
  step : Binary64
  least : Int
  most : Int
deriving DecidableEq, Repr

/-- A step is a positive finite number. -/
def checkStep (step : Binary64) : Except InvalidReason Unit :=
  if !step.isFinite || step.le .zero then .error (.badStep step) else .ok ()

namespace Multiples

def within (low high step : Binary64) : Except InvalidReason Multiples := do
  checkStep step
  let least := (low.div step).ceil
  let most := (high.div step).floor
  if most.lt least then .error (.noMultiple step low high)
  else pure ⟨step, least.toInt64, most.toInt64⟩

/-- The multiple by a drawn factor. -/
def value (multiples : Multiples) (factor : Int) : Binary64 :=
  (Binary64.ofInt factor).mul multiples.step

end Multiples

/-- The greatest factor by which a step is scaled to a whole number. -/
def maxStepScale : Nat := 10000

/-- The relative error at which a scaled step counts as whole. -/
def wholeTolerance : Binary64 := Binary64.ofDecimal false 1 (-12)

/-- A multiple of the step that is a whole number but for rounding errors. -/
def wholeMultiple? (step : Binary64) (scale : Nat) : Option Binary64 :=
  let candidate := step.mul (Binary64.ofInt scale)
  let rounded := candidate.round
  if Binary64.one.le rounded &&
      (candidate.sub rounded).abs.le (candidate.mul wholeTolerance) then some rounded
  else none

/-- Tries the scales from one up. -/
def searchWholeMultiple (step : Binary64) : (remaining scale : Nat) → Option Binary64
  | 0, _ => none
  | remaining + 1, scale =>
    match wholeMultiple? step scale with
    | some whole => some whole
    | none => searchWholeMultiple step remaining (scale + 1)

/-- The least whole number that is a multiple of the step. -/
def wholeStep (step : Binary64) : Except InvalidReason Binary64 := do
  checkStep step
  match searchWholeMultiple step maxStepScale 1 with
  | some whole => pure whole
  | none => .error (.noWholeStep step)

/-- The quotient is within one epsilon of a whole number. -/
def isMultiple (value step : Binary64) : Bool :=
  let remainder := (value.div step).fract.abs
  remainder.lt .epsilon || (Binary64.one.sub .epsilon).lt remainder

end SchemaSampler
