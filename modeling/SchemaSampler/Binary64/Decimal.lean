import SchemaSampler.Binary64.Basic

/-!
# Decimal texts of binary64 numbers

* `shortest` finds the decimal of fewest digits that reads back as the same number, and the
  nearest one among those.
* `plainText` writes it without an exponent and without a point on whole numbers.
* `jsonText` writes it as a JSON float: positional from `1e-5` up to `1e16`, and with an
  exponent elsewhere.
* `ofDecimal` reads a decimal, rounding it to the nearest number.
-/

namespace SchemaSampler

/-- The positive decimal `significand * 10 ^ exponent`. -/
structure Decimal where
  significand : Nat
  exponent : Int
deriving DecidableEq, Repr

namespace Binary64

/-! ## The shortest decimal -/

/-- The decimals that read back as a magnitude, in half units: from `lower` to `upper`, the ends
included when the magnitude is even. -/
structure ReadingInterval where
  lower : Nat
  value : Nat
  upper : Nat
  closed : Bool

def readingInterval (magnitude : Nat) : ReadingInterval where
  lower := unitsOf (magnitude - 1) + unitsOf magnitude
  value := 2 * unitsOf magnitude
  upper := unitsOf magnitude + unitsOf (magnitude + 1)
  closed := magnitude % 2 == 0

/-- The half units that make one. -/
def oneHalfUnits : Nat := 1 <<< 1075

/-- The quotient of half units by `10 ^ exponent`, as numerator scale and denominator. -/
def gridScale (exponent : Int) : Nat × Nat :=
  if exponent < 0 then (Nat.pow 10 exponent.natAbs, oneHalfUnits)
  else (1, Nat.pow 10 exponent.natAbs * oneHalfUnits)

/-- The multiple of `10 ^ exponent` nearest to the value among its two neighbours inside the
interval, a tie going to the even one. -/
def ReadingInterval.onGrid? (interval : ReadingInterval) (exponent : Int) : Option Nat :=
  let (scale, den) := gridScale exponent
  let below := interval.value * scale / den
  let inside (n : Nat) : Bool :=
    if interval.closed then
      interval.lower * scale ≤ n * den && n * den ≤ interval.upper * scale
    else interval.lower * scale < n * den && n * den < interval.upper * scale
  match decide (0 < below) && inside below, inside (below + 1) with
  | true, true => some (roundHalfEven (interval.value * scale) den)
  | true, false => some below
  | false, true => some (below + 1)
  | false, false => none

/-- A power of ten above the value, by at most two places. -/
def exponentAbove (interval : ReadingInterval) : Int :=
  ((interval.value.log2 : Int) - 1075) * 30103 / 100000 + 2

/-- Tries the grids from the coarsest one down. -/
def searchGrids (interval : ReadingInterval) : Nat → Int → Decimal
  | 0, exponent => ⟨interval.value * (gridScale exponent).1 / (gridScale exponent).2, exponent⟩
  | steps + 1, exponent =>
    match interval.onGrid? exponent with
    | some significand => ⟨significand, exponent⟩
    | none => searchGrids interval steps (exponent - 1)

/-- The shortest decimal that reads back as a finite magnitude other than zero. -/
def shortest (magnitude : Nat) : Decimal :=
  let interval := readingInterval magnitude
  searchGrids interval 22 (exponentAbove interval)

/-! ## Layouts -/

def zeros (count : Nat) : String := String.ofList (List.replicate count '0')

def signText (negative : Bool) : String := if negative then "-" else ""

/-- The digits of a decimal with the point in its place; a whole number ends in `whole`. -/
def positional (digits : String) (exponent : Int) (whole : String) : String :=
  let pointAt : Int := digits.length + exponent
  if 0 ≤ exponent then digits ++ zeros exponent.toNat ++ whole
  else if pointAt ≤ 0 then "0." ++ zeros (-pointAt).toNat ++ digits
  else
    String.ofList (digits.toList.take pointAt.toNat) ++ "." ++
      String.ofList (digits.toList.drop pointAt.toNat)

/-- One digit before the point, then the exponent with its sign when positive. -/
def scientific (digits : String) (exponent : Int) : String :=
  let head := String.ofList (digits.toList.take 1)
  let tail := String.ofList (digits.toList.drop 1)
  let power : Int := digits.length + exponent - 1
  let mantissa := if tail.isEmpty then head else head ++ "." ++ tail
  mantissa ++ "e" ++ (if power < 0 then "-" else "+") ++ toString power.natAbs

/-- The text without exponent: `5`, `0.5`, `-0`, `inf`, `NaN`. -/
def plainText : Binary64 → String
  | .nan => "NaN"
  | .signed negative magnitude _ =>
    signText negative ++
      (if magnitude == 0 then "0"
      else if infiniteMagnitude ≤ magnitude then "inf"
      else
        let decimal := shortest magnitude
        positional (toString decimal.significand) decimal.exponent "")

/-- The text of a finite number in JSON: `5.0`, `0.00001`, `1e+16`, `1.5e-7`. -/
def jsonText : Binary64 → String
  | .nan => "null"
  | .signed negative magnitude _ =>
    if infiniteMagnitude ≤ magnitude then "null"
    else
      signText negative ++
        (if magnitude == 0 then "0.0"
        else
          let decimal := shortest magnitude
          let digits := toString decimal.significand
          let power : Int := digits.length + decimal.exponent - 1
          if -5 ≤ power && power < 16 then positional digits decimal.exponent ".0"
          else scientific digits decimal.exponent)

/-! The layouts at the ends of their ranges. -/

example : (ofBits 0x3FF0000000000000).jsonText = "1.0" := by decide +kernel
example : (ofBits 0x8000000000000000).jsonText = "-0.0" := by decide +kernel
example : (ofBits 0x4341C37937E08000).jsonText = "1e+16" := by decide +kernel
example : (ofBits 0x3EE4F8B588E368F1).jsonText = "0.00001" := by decide +kernel
example : (ofBits 0x3E8421F5F40D8376).jsonText = "1.5e-7" := by decide +kernel
example : (ofBits 0x0000000000000001).jsonText = "5e-324" := by decide +kernel
example : (ofBits 0x444B1AE4D6E2EF50).plainText = "1000000000000000000000" := by decide +kernel
example : (ofBits 0x8000000000000000).plainText = "-0" := by decide +kernel

/-! ## Reading -/

/-- Exponents beyond this give zero or infinity whatever the significand's leading digits. -/
def exponentReach : Int := 400

/-- The number nearest to `significand * 10 ^ exponent` with a sign. -/
def ofDecimal (negative : Bool) (significand : Nat) (exponent : Int) : Binary64 :=
  let leading : Int := (toString significand).length + exponent
  if significand == 0 then ofMagnitude negative 0
  else if exponentReach < leading then ofMagnitude negative infiniteMagnitude
  else if leading < -exponentReach then ofMagnitude negative 0
  else if exponent < 0 then ofUnits negative (significand * oneUnits) (Nat.pow 10 exponent.natAbs)
  else ofUnits negative (significand * Nat.pow 10 exponent.natAbs * oneUnits) 1

/-- The sixteen hexadecimal digits of the encoding. -/
def hexText (x : Binary64) : String :=
  let digits := Nat.toDigits 16 x.toBits
  zeros (16 - digits.length) ++ String.ofList digits

end Binary64

end SchemaSampler
