import SchemaSampler.Generator.Basic
import SchemaSampler.Generator.Ranges

/-!
# Numeric generators

An integer or number is drawn from the range of its bounds. With a step, a multiple of it is
drawn and a filter guards against rounding: an integer schema steps by the least whole multiple
of its step.
-/

namespace SchemaSampler

namespace Generator

/-- A numeric value passes a test on floats. -/
def floatPasses (test : Binary64 → Bool) (value : Json) : Bool :=
  (value.toFloat?.map test).getD false

/-- What an exhausted filter on multiples reports. -/
def multipleFragment (kind : String) (step : Binary64) (low high : String) : String :=
  kind ++ " multipleOf " ++ step.plainText ++ " within " ++ rangeText low high

def integerOf (bounds : NumericBounds) : Except InvalidReason Generator := do
  let (low, high) ← bounds.integerRange
  match bounds.multipleOf with
  | none => pure (integer low high none)
  | some step =>
    let lower := Binary64.ofInt low
    let upper := Binary64.ofInt high
    let whole ← wholeStep step
    let multiples ← Multiples.within lower upper whole
    pure (filter (integer low high (some multiples))
      (multipleFragment "integer" step (toString low) (toString high))
      (floatPasses fun x => x.isWhole && lower.le x && x.le upper && isMultiple x step))

def numberOf (bounds : NumericBounds) : Except InvalidReason Generator := do
  let (low, high) ← bounds.numberRange
  match bounds.multipleOf with
  | none => pure (number low high none)
  | some step =>
    let multiples ← Multiples.within low high step
    pure (filter (number low high (some multiples))
      (multipleFragment "number" step low.plainText high.plainText)
      (floatPasses fun x => low.le x && x.le high && isMultiple x step))

end Generator

end SchemaSampler
