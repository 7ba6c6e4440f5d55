import SchemaSampler.Binary64.Arithmetic
import SchemaSampler.Json.Basic

/-!
# Equality of values

Validation compares numbers by their exact values, so `1` equals `1.0`. Other values are equal
when they have the same form and equal parts.
-/

namespace SchemaSampler

namespace Json

/-- The exact value of a number in units, nothing for other values. -/
def units? : Json → Option Int
  | int value => some (value * (Binary64.oneUnits : Int))
  | float value => some value.units
  | _ => none

mutual
/-- The same value, numbers being compared by their exact values. -/
def sameValue : Json → Json → Bool
  | null, null => true
  | bool a, bool b => a == b
  | str a, str b => a == b
  | arr a, arr b => sameItems a b
  | obj a, obj b => sameMembers a b
  | a, b =>
    match units? a, units? b with
    | some a, some b => a == b
    | _, _ => false

def sameItems : List Json → List Json → Bool
  | [], [] => true
  | a :: as, b :: bs => sameValue a b && sameItems as bs
  | _, _ => false

def sameMembers : List (String × Json) → List (String × Json) → Bool
  | [], [] => true
  | (name, a) :: as, (other, b) :: bs => name == other && sameValue a b && sameMembers as bs
  | _, _ => false
end

/-- No two items are equal. -/
def distinctValues : List Json → Bool
  | [] => true
  | item :: rest => !rest.any (sameValue item) && distinctValues rest

end Json

end SchemaSampler
