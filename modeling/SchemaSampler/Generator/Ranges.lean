import SchemaSampler.Error

/-!
# Numeric ranges

`integerRange` and `numberRange` turn the declared bounds into an inclusive range. A numeric
exclusive bound narrows the range beside the inclusive bound; a boolean one only changes how the
inclusive bound is read. Where one side is open the range reaches a fixed distance from the
other.
-/

namespace SchemaSampler

namespace NumericBounds

/-- The flag form of an exclusive bound is set. -/
def isStrict (exclusive : Option ExclusiveBound) : Bool := exclusive == some (.flag true)

/-- A side of a range: the inclusive bound, and the numeric exclusive bound beside it. -/
def side (inclusive : Option Binary64) (exclusive : Option ExclusiveBound)
    (weak strict : Binary64 → Binary64) (narrower : Binary64 → Binary64 → Binary64) :
    Option Binary64 :=
  let base := inclusive.map (if isStrict exclusive then strict else weak)
  match exclusive with
  | some (.limit limit) =>
    some ((base.map fun current => narrower current (strict limit)).getD (strict limit))
  | _ => base

/-! ## Integers -/

/-- The extremes of integers without bounds. -/
def defaultIntegerMin : Int := -0x80000000
def defaultIntegerMax : Int := 0x7FFFFFFF

/-- The sum clamped to 64-bit integers. -/
def clampedAdd (a b : Int) : Int :=
  max Binary64.int64Min (min Binary64.int64Max (a + b))

/-- The least whole number above a limit, and the greatest below. -/
def wholeAbove (limit : Binary64) : Binary64 := limit.floor.add .one
def wholeBelow (limit : Binary64) : Binary64 := limit.ceil.sub .one

def integerRange (bounds : NumericBounds) : Except InvalidReason (Int × Int) :=
  let lower := side bounds.minimum bounds.exclusiveMinimum Binary64.ceil wholeAbove Binary64.max
  let upper := side bounds.maximum bounds.exclusiveMaximum Binary64.floor wholeBelow Binary64.min
  let (low, high) := match lower.map Binary64.toInt64, upper.map Binary64.toInt64 with
    | some low, some high => (low, high)
    | some low, none => (low, max defaultIntegerMax (clampedAdd low defaultIntegerMax))
    | none, some high => (min defaultIntegerMin (clampedAdd high defaultIntegerMin), high)
    | none, none => (defaultIntegerMin, defaultIntegerMax)
  if high < low then .error (.emptyIntegerRange low high) else .ok (low, high)

/-! ## Numbers -/

def numberRange (bounds : NumericBounds) : Except InvalidReason (Binary64 × Binary64) :=
  let lower := side bounds.minimum bounds.exclusiveMinimum id Binary64.nextUp Binary64.max
  let upper := side bounds.maximum bounds.exclusiveMaximum id Binary64.nextDown Binary64.min
  let (low, high) := match lower, upper with
    | some low, some high => (low, high)
    | some low, none => (low, if low.le .one then .one else low.add .one)
    | none, some high => (if Binary64.zero.le high then .zero else high.sub .one, high)
    | none, none => (.zero, .one)
  if !(low.isFinite && high.isFinite && (high.sub low).isFinite) then
    .error (.infiniteNumberRange low high)
  else if high.lt low then .error (.emptyNumberRange low high)
  else .ok (low, high)

/-! A strict bound excludes a whole number; between neighbours nothing is left. -/

example : (integerRange ⟨some .one, some (.ofInt 3), some (.flag true), none, none⟩).toOption =
    some (2, 3) := by decide +kernel
example : (integerRange ⟨none, none, some (.limit .zero), some (.limit .one), none⟩).toOption =
    none := by decide +kernel

end NumericBounds

end SchemaSampler
