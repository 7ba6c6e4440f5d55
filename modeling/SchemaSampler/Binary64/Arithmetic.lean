import SchemaSampler.Binary64.Basic

/-!
# Arithmetic on binary64 numbers

Each operation computes the exact result in units and rounds it once.
-/

namespace SchemaSampler

namespace Binary64

/-- The number nearest to a signed count of units; `zeroSign` is the sign of an exact zero. -/
def ofSignedUnits (zeroSign : Bool) (value : Int) : Binary64 :=
  if value == 0 then ofMagnitude zeroSign 0
  else ofUnits (value < 0) value.natAbs 1

def add : Binary64 → Binary64 → Binary64
  | .nan, _ => .nan
  | _, .nan => .nan
  | x, y =>
    if x.isFinite then
      if y.isFinite then ofSignedUnits (x.isNegative && y.isNegative) (x.units + y.units) else y
    else if y.isFinite || x.isNegative == y.isNegative then x
    else .nan

def sub (x y : Binary64) : Binary64 := x.add y.neg

def mul : Binary64 → Binary64 → Binary64
  | .nan, _ => .nan
  | _, .nan => .nan
  | x, y =>
    let negative := x.isNegative != y.isNegative
    if x.isFinite && y.isFinite then ofUnits negative (x.absUnits * y.absUnits) oneUnits
    else if x.absUnits == 0 || y.absUnits == 0 then .nan
    else ofMagnitude negative infiniteMagnitude

def div : Binary64 → Binary64 → Binary64
  | .nan, _ => .nan
  | _, .nan => .nan
  | x, y =>
    let negative := x.isNegative != y.isNegative
    if x.isFinite then
      if !y.isFinite then ofMagnitude negative 0
      else if y.absUnits == 0 then
        if x.absUnits == 0 then .nan else ofMagnitude negative infiniteMagnitude
      else ofUnits negative (x.absUnits * oneUnits) y.absUnits
    else if y.isFinite then ofMagnitude negative infiniteMagnitude
    else .nan

/-! ## Whole numbers -/

/-- The number nearest to a natural number, with a sign. -/
def ofWhole (negative : Bool) (n : Nat) : Binary64 := ofUnits negative (n * oneUnits) 1

/-- The number nearest to an integer. -/
def ofInt (n : Int) : Binary64 := ofWhole (n < 0) n.natAbs

/-- Applies a rounding of absolute values to whole numbers; the sign stays. -/
def roundWith (rounding : Bool → Nat → Nat) : Binary64 → Binary64
  | .nan => .nan
  | x =>
    if x.isFinite then ofWhole x.isNegative (rounding x.isNegative x.absUnits)
    else x

/-- The quotient rounded up. -/
def quotientUp (num den : Nat) : Nat := (num + den - 1) / den

def trunc : Binary64 → Binary64 := roundWith fun _ units => units / oneUnits

def floor : Binary64 → Binary64 := roundWith fun negative units =>
  if negative then quotientUp units oneUnits else units / oneUnits

def ceil : Binary64 → Binary64 := roundWith fun negative units =>
  if negative then units / oneUnits else quotientUp units oneUnits

/-- The nearest whole number, a half going away from zero. -/
def round : Binary64 → Binary64 := roundWith fun _ units =>
  (2 * units + oneUnits) / (2 * oneUnits)

/-- What truncation drops. -/
def fract (x : Binary64) : Binary64 := x.sub x.trunc

/-- True of a finite number without fractional part. -/
def isWhole (x : Binary64) : Bool := x.isFinite && x.absUnits % oneUnits == 0

def int64Min : Int := -0x8000000000000000
def int64Max : Int := 0x7FFFFFFFFFFFFFFF

/-- The whole part clamped to 64-bit integers, zero for not-a-number. -/
def toInt64 (x : Binary64) : Int :=
  let whole : Int := (x.absUnits / oneUnits : Nat)
  Max.max int64Min (Min.min int64Max (if x.isNegative then -whole else whole))

/-- The distance from one to the next number. -/
def epsilon : Binary64 := ofMagnitude false 0x3CB0000000000000

end Binary64

end SchemaSampler
