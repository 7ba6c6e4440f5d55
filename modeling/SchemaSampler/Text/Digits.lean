/-!
# Digits

The numbers that runs of decimal and hexadecimal digits write.
-/

namespace SchemaSampler

namespace Digits

def value (c : Char) : Nat := c.toNat - '0'.toNat

/-- The number that decimal digits write, continuing from `start`. -/
def number (start : Nat) (digits : List Char) : Nat :=
  digits.foldl (fun n c => 10 * n + value c) start

/-- The value of a hexadecimal digit of either case. -/
def hexValue? (c : Char) : Option Nat :=
  if c.isDigit then some (value c)
  else if 'a' ≤ c && c ≤ 'f' then some (c.toNat - 'a'.toNat + 10)
  else if 'A' ≤ c && c ≤ 'F' then some (c.toNat - 'A'.toNat + 10)
  else none

/-- The number that hexadecimal digits write. -/
def hexNumber? (digits : List Char) : Option Nat :=
  (digits.mapM hexValue?).map fun values => values.foldl (fun n d => 16 * n + d) 0

end Digits

end SchemaSampler
