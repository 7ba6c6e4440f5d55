import SchemaSampler.Binary64.Arithmetic
import SchemaSampler.Entries

/-!
# JSON values

Integers and floats are different numbers: `1` is an integer and `1.0` a float. Integers fit in
64 bits, signed or unsigned; floats are finite. The members of an object are sorted by name.
-/

namespace SchemaSampler

/-- A JSON value. -/
inductive Json where
  | null
  | bool (value : Bool)
  | int (value : Int)
  | float (value : Binary64)
  | str (value : String)
  | arr (items : List Json)
  | obj (members : List (String × Json))
deriving Repr

namespace Json

instance : Inhabited Json := ⟨null⟩

/-! ## Equality of forms -/

mutual
/-- The same value in the same form: `1` and `1.0` differ. -/
def beq : Json → Json → Bool
  | null, null => true
  | bool a, bool b => a == b
  | int a, int b => a == b
  | float a, float b => a == b
  | str a, str b => a == b
  | arr a, arr b => beqItems a b
  | obj a, obj b => beqMembers a b
  | _, _ => false

def beqItems : List Json → List Json → Bool
  | [], [] => true
  | a :: as, b :: bs => beq a b && beqItems as bs
  | _, _ => false

def beqMembers : List (String × Json) → List (String × Json) → Bool
  | [], [] => true
  | (name, a) :: as, (other, b) :: bs => name == other && beq a b && beqMembers as bs
  | _, _ => false
end

instance : BEq Json := ⟨beq⟩

/-! ## Well-formed values -/

mutual
/-- The members of every object are sorted by name. -/
def WellFormed : Json → Prop
  | arr items => WellFormedItems items
  | obj members => Entries.Sorted members ∧ WellFormedMembers members
  | _ => True

def WellFormedItems : List Json → Prop
  | [] => True
  | item :: rest => WellFormed item ∧ WellFormedItems rest

def WellFormedMembers : List (String × Json) → Prop
  | [] => True
  | (_, value) :: rest => WellFormed value ∧ WellFormedMembers rest
end

/-- The range of JSON integers. -/
def intMin : Int := -0x8000000000000000
def intMax : Int := 0xFFFFFFFFFFFFFFFF

/-! ## Parts -/

/-- An object from pairs in any order; the last of equal names stays. -/
def object (pairs : List (String × Json)) : Json := obj (Entries.ofList pairs)

/-- The member of an object, nothing for other values. -/
def get? : Json → String → Option Json
  | obj members, name => Entries.get? members name
  | _, _ => none

mutual
/-- How many arrays and objects stand inside each other. -/
def depth : Json → Nat
  | arr items => itemsDepth items + 1
  | obj members => membersDepth members + 1
  | _ => 0

def itemsDepth : List Json → Nat
  | [] => 0
  | item :: rest => max item.depth (itemsDepth rest)

def membersDepth : List (String × Json) → Nat
  | [] => 0
  | (_, value) :: rest => max value.depth (membersDepth rest)
end

/-- An array of strings. -/
def strings (texts : List String) : Json := arr (texts.map str)

/-- The float nearest to a number, nothing for other values. -/
def toFloat? : Json → Option Binary64
  | int value => some (Binary64.ofInt value)
  | float value => some value
  | _ => none

def isObject : Json → Bool
  | obj _ => true
  | _ => false

end Json

end SchemaSampler
