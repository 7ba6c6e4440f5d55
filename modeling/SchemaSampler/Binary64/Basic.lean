/-!
# Binary64 numbers

A binary64 number is not-a-number, or a sign and a magnitude. The magnitude is the encoding
without its sign bit, so magnitudes are ordered as the absolute values are and the next number
away from zero is the next magnitude.

The exact absolute value is a whole number of units of `2 ^ (-1074)`:

* `unitsOf` reads the units off a magnitude;
* `nearestMagnitude` is the magnitude nearest to a quotient of units, ties going to the even one.

All arithmetic goes through these two functions.
-/

namespace SchemaSampler

/-- The magnitude of infinity; every finite magnitude is below it. -/
def infiniteMagnitude : Nat := 0x7FF0000000000000

/-- The sign of an encoding, `2 ^ 63`. -/
def signBit : Nat := 0x8000000000000000

/-- The leading bit of a significand that its encoding leaves out, `2 ^ 52`. -/
def leadingBit : Nat := 0x0010000000000000

/-- A binary64 number, with a single not-a-number. -/
inductive Binary64 where
  | nan
  | signed (negative : Bool) (magnitude : Nat) (bounded : magnitude ≤ infiniteMagnitude)
deriving DecidableEq, Repr

namespace Binary64

/-- The number with a sign and a magnitude, infinite when the magnitude is out of range. -/
def ofMagnitude (negative : Bool) (magnitude : Nat) : Binary64 :=
  .signed negative (min magnitude infiniteMagnitude) (Nat.min_le_right _ _)

def zero : Binary64 := ofMagnitude false 0
def one : Binary64 := ofMagnitude false 0x3FF0000000000000
def infinity : Binary64 := ofMagnitude false infiniteMagnitude

instance : Inhabited Binary64 := ⟨zero⟩

/-- The number with the given 64-bit encoding. -/
def ofBits (bits : Nat) : Binary64 :=
  let magnitude := bits % signBit
  if infiniteMagnitude < magnitude then .nan
  else ofMagnitude (bits / signBit % 2 == 1) magnitude

/-- The 64-bit encoding. -/
def toBits : Binary64 → Nat
  | .nan => 0x7FF8000000000000
  | .signed negative magnitude _ => (if negative then signBit else 0) + magnitude

/-! ## Exact values -/

/-- The units of `2 ^ (-1074)` in a magnitude; those of infinity continue the finite ones. -/
def unitsOf (magnitude : Nat) : Nat :=
  if magnitude < leadingBit then magnitude
  else (leadingBit + magnitude % leadingBit) <<< (magnitude / leadingBit - 1)

/-- The quotient rounded to a whole number, a half going to the even neighbour. -/
def roundHalfEven (num den : Nat) : Nat :=
  let quotient := num / den
  let twice := 2 * (num % den)
  if twice < den then quotient
  else if den < twice then quotient + 1
  else quotient + quotient % 2

/-- The magnitude nearest to `num / den` units. -/
def nearestMagnitude (num den : Nat) : Nat :=
  let shift := (num / den).log2 - 52
  shift * leadingBit + roundHalfEven num (den <<< shift)

/-- The number nearest to `num / den` units with the given sign. -/
def ofUnits (negative : Bool) (num den : Nat) : Binary64 :=
  ofMagnitude negative (nearestMagnitude num den)

/-- The units that make one. -/
def oneUnits : Nat := 1 <<< 1074

def isNaN : Binary64 → Bool
  | .nan => true
  | .signed .. => false

def isFinite : Binary64 → Bool
  | .nan => false
  | .signed _ magnitude _ => magnitude < infiniteMagnitude

def isNegative : Binary64 → Bool
  | .nan => false
  | .signed negative _ _ => negative

/-- The absolute value in units. -/
def absUnits : Binary64 → Nat
  | .nan => 0
  | .signed _ magnitude _ => unitsOf magnitude

/-- The exact value in units, zero for not-a-number. -/
def units (x : Binary64) : Int :=
  if x.isNegative then -(x.absUnits : Int) else x.absUnits

/-! ## Order -/

/-- The magnitude with its sign; both zeros have rank zero. -/
def rank : Binary64 → Int
  | .nan => 0
  | .signed negative magnitude _ => if negative then -(magnitude : Int) else magnitude

def lt (x y : Binary64) : Bool := !x.isNaN && !y.isNaN && x.rank < y.rank
def le (x y : Binary64) : Bool := !x.isNaN && !y.isNaN && x.rank ≤ y.rank
/-- Equality of values: both zeros are equal and not-a-number equals nothing. -/
def same (x y : Binary64) : Bool := !x.isNaN && !y.isNaN && x.rank == y.rank

/-- The greater of two numbers, ignoring not-a-number. -/
def max (x y : Binary64) : Binary64 :=
  if x.isNaN then y else if x.lt y then y else x

/-- The lesser of two numbers, ignoring not-a-number. -/
def min (x y : Binary64) : Binary64 :=
  if x.isNaN then y else if y.lt x then y else x

/-! ## Neighbours -/

def neg : Binary64 → Binary64
  | .nan => .nan
  | .signed negative magnitude bounded => .signed (!negative) magnitude bounded

def abs : Binary64 → Binary64
  | .nan => .nan
  | .signed _ magnitude bounded => .signed false magnitude bounded

/-- The adjacent number above; infinity is its own. -/
def nextUp : Binary64 → Binary64
  | .nan => .nan
  | .signed _ 0 _ => ofMagnitude false 1
  | .signed false magnitude _ => ofMagnitude false (magnitude + 1)
  | .signed true (magnitude + 1) _ => ofMagnitude true magnitude

/-- The adjacent number below; negative infinity is its own. -/
def nextDown (x : Binary64) : Binary64 := x.neg.nextUp.neg

end Binary64

end SchemaSampler
