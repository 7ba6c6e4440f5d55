import SchemaSampler.Generator.Draw
import SchemaSampler.Proofs.Binary64.Whole
import SchemaSampler.Validity.Equality

/-!
# Comparison keys and equality of values

Distinct items are told apart by their keys, in which whole floats are written as integers. Floats
from `2 ^ 63` on in absolute value stay floats, so a key does not show that such a float and an
integer have the same value. Everywhere else equal keys are equal values.

Results:
1. `eq_of_beq_true`, `beq_refl`: equality of forms is decided by `==`.
2. `wholeFloat_eq_int_iff`: the floats that are written as integers.
3. `uniqueKey_eq_iff`: equal keys are equal values that do not meet at an end of the integers.
-/

namespace SchemaSampler

namespace Json

/-! ## Equality of forms -/

mutual
theorem eq_of_beq_true : (a b : Json) → beq a b = true → a = b
  | null, null, _ => rfl
  | bool _, bool _, same => congrArg bool (eq_of_beq same)
  | int _, int _, same => congrArg int (eq_of_beq same)
  | float _, float _, same => congrArg float (eq_of_beq same)
  | str _, str _, same => congrArg str (eq_of_beq same)
  | arr as, arr bs, same => congrArg arr (eq_of_beqItems as bs same)
  | obj as, obj bs, same => congrArg obj (eq_of_beqMembers as bs same)

theorem eq_of_beqItems : (as bs : List Json) → beqItems as bs = true → as = bs
  | [], [], _ => rfl
  | a :: as, b :: bs, same => by
    obtain ⟨first, rest⟩ := Bool.and_eq_true_iff.mp same
    rw [eq_of_beq_true a b first, eq_of_beqItems as bs rest]

theorem eq_of_beqMembers : (as bs : List (String × Json)) → beqMembers as bs = true → as = bs
  | [], [], _ => rfl
  | (name, a) :: as, (other, b) :: bs, same => by
    obtain ⟨first, rest⟩ := Bool.and_eq_true_iff.mp same
    obtain ⟨named, first⟩ := Bool.and_eq_true_iff.mp first
    rw [eq_of_beq named, eq_of_beq_true a b first, eq_of_beqMembers as bs rest]
end

mutual
theorem beq_refl : (a : Json) → beq a a = true
  | null => rfl
  | bool value => beq_self_eq_true value
  | int value => beq_self_eq_true value
  | float value => beq_self_eq_true value
  | str value => beq_self_eq_true value
  | arr items => beqItems_refl items
  | obj members => beqMembers_refl members

theorem beqItems_refl : (items : List Json) → beqItems items items = true
  | [] => rfl
  | item :: rest => Bool.and_eq_true_iff.mpr ⟨beq_refl item, beqItems_refl rest⟩

theorem beqMembers_refl : (members : List (String × Json)) → beqMembers members members = true
  | [] => rfl
  | (name, value) :: rest => Bool.and_eq_true_iff.mpr
    ⟨Bool.and_eq_true_iff.mpr ⟨beq_self_eq_true name, beq_refl value⟩, beqMembers_refl rest⟩
end

instance : LawfulBEq Json where
  eq_of_beq := eq_of_beq_true _ _
  rfl := beq_refl _

/-! ## Floats and integers of the same value -/

mutual
/-- Every float in the value is finite. -/
def Finite : Json → Prop
  | float value => value.isFinite = true
  | arr items => FiniteItems items
  | obj members => FiniteMembers members
  | _ => True

def FiniteItems : List Json → Prop
  | [] => True
  | item :: rest => Finite item ∧ FiniteItems rest

def FiniteMembers : List (String × Json) → Prop
  | [] => True
  | (_, value) :: rest => Finite value ∧ FiniteMembers rest
end

/-- The integer is one that no float is turned into; of the integers of JSON these are the least
one and those from `2 ^ 63` on. -/
def AtEnd (n : Int) : Prop := n ≤ -2 ^ 63 ∨ 2 ^ 63 ≤ n

/-- At the same place of both values an integer at an end meets a float of its exact value. -/
inductive MeetsAtEnd : Json → Json → Prop
  | integer {n : Int} {x : Binary64} : AtEnd n → x.HasValue n → MeetsAtEnd (int n) (float x)
  | float {n : Int} {x : Binary64} : AtEnd n → x.HasValue n → MeetsAtEnd (float x) (int n)
  | item {as bs : List Json} {a b : Json} : (a, b) ∈ as.zip bs → MeetsAtEnd a b →
      MeetsAtEnd (arr as) (arr bs)
  | member {as bs : List (String × Json)} {name : String} {a b : Json} :
      ((name, a), (name, b)) ∈ as.zip bs → MeetsAtEnd a b → MeetsAtEnd (obj as) (obj bs)

end Json

theorem hasValue_signBit : (Binary64.ofInt signBit).HasValue (2 ^ 63) :=
  ⟨by decide +kernel, by decide +kernel⟩

/-- Whole floats below `2 ^ 63` in absolute value are written as the integers that they are. -/
theorem wholeFloat_eq_int_iff {x : Binary64} {n : Int} :
    wholeFloat x = .int n ↔ x.HasValue n ∧ ¬ Json.AtEnd n := by
  have inside {n : Int} (value : x.HasValue n) :
      x.abs.lt (Binary64.ofInt signBit) = true ↔ ¬ Json.AtEnd n := by
    rw [value.abs.lt_iff hasValue_signBit, abs_lt, Json.AtEnd]
    omega
  have whole {n : Int} (value : x.HasValue n) (middle : ¬ Json.AtEnd n) : x.toInt64 = n := by
    rw [value.toInt64_eq]
    unfold Json.AtEnd at middle
    unfold Binary64.int64Min Binary64.int64Max
    omega
  unfold wholeFloat
  constructor
  · intro same
    split at same
    next written =>
      obtain ⟨integer, small⟩ := Bool.and_eq_true_iff.mp written
      obtain ⟨value, own⟩ := Binary64.isWhole_iff.mp integer
      have middle := (inside own).mp small
      cases same
      rw [whole own middle]
      exact ⟨own, middle⟩
    next => cases same
  · rintro ⟨value, middle⟩
    rw [if_pos (Bool.and_eq_true_iff.mpr ⟨Binary64.isWhole_iff.mpr ⟨n, value⟩,
      (inside value).mpr middle⟩), whole value middle]

/-- Other floats stay as they are. -/
theorem wholeFloat_cases (x : Binary64) :
    (∃ n, wholeFloat x = .int n) ∨ wholeFloat x = .float x := by
  unfold wholeFloat
  split
  · exact .inl ⟨_, rfl⟩
  · exact .inr rfl

theorem wholeFloat_eq_self {x : Binary64} (other : ∀ n, x.HasValue n → Json.AtEnd n) :
    wholeFloat x = .float x := by
  rcases wholeFloat_cases x with ⟨n, written⟩ | same
  · obtain ⟨value, middle⟩ := wholeFloat_eq_int_iff.mp written
    exact absurd (other n value) middle
  · exact same

/-- Only the two zeros have the same exact value. -/
theorem Binary64.eq_of_units_eq {x y : Binary64} (number : x.isNaN = false)
    (other : y.isNaN = false) (same : x.units = y.units) (nonzero : x.units ≠ 0) : x = y := by
  cases x with
  | nan => cases number
  | signed negative magnitude bounded =>
    cases y with
    | nan => cases other
    | signed negative' magnitude' bounded' =>
      -- Of different signs only the zeros have the same units.
      have signs : negative = negative' := by
        cases negative <;> cases negative' <;>
          simp only [units, isNegative, absUnits, Bool.false_eq_true, if_true, if_false] at * <;>
          omega
      subst signs
      have units : unitsOf magnitude = unitsOf magnitude' := by
        cases negative <;>
          simp only [units, isNegative, absUnits, Bool.false_eq_true, if_true, if_false] at * <;>
          omega
      cases unitsOf_strictMono.injective units
      rfl

theorem wholeFloat_eq_wholeFloat_iff {x y : Binary64} (finite : x.isFinite = true)
    (other : y.isFinite = true) : wholeFloat x = wholeFloat y ↔ x.units = y.units := by
  constructor
  · intro same
    rcases wholeFloat_cases x with ⟨n, written⟩ | own
    · have value := (wholeFloat_eq_int_iff.mp written).1
      have value' := (wholeFloat_eq_int_iff.mp (same.symm.trans written)).1
      rw [value.2, value'.2]
    · rcases wholeFloat_cases y with ⟨n, written⟩ | own'
      · cases own.symm.trans (same.trans written)
      · rw [Json.float.inj (own.symm.trans (same.trans own'))]
  · intro same
    have values {n : Int} : x.HasValue n ↔ y.HasValue n :=
      ⟨fun value => ⟨other, same ▸ value.2⟩, fun value => ⟨finite, same ▸ value.2⟩⟩
    by_cases written : ∃ n, x.HasValue n ∧ ¬ Json.AtEnd n
    · obtain ⟨n, value, middle⟩ := written
      rw [wholeFloat_eq_int_iff.mpr ⟨value, middle⟩,
        wholeFloat_eq_int_iff.mpr ⟨values.mp value, middle⟩]
    · have ends (n : Int) (value : x.HasValue n) : Json.AtEnd n :=
        not_not.mp fun middle => written ⟨n, value, middle⟩
      have nonzero : x.units ≠ 0 := by
        intro zero
        have := ends 0 ⟨finite, by rw [zero, Int.zero_mul]⟩
        unfold Json.AtEnd at this
        omega
      rw [wholeFloat_eq_self ends, wholeFloat_eq_self fun n value => ends n (values.mpr value),
        Binary64.eq_of_units_eq (Binary64.isNaN_of_isFinite finite)
          (Binary64.isNaN_of_isFinite other) same nonzero]

namespace Json

/-! ## Keys and values -/

theorem sameItems_iff {as bs : List Json} :
    sameItems as bs = true ↔ List.Forall₂ (fun a b => sameValue a b = true) as bs := by
  induction as generalizing bs with
  | nil => cases bs <;> simp [sameItems]
  | cons a as ih => cases bs <;> simp [sameItems, ih]

theorem sameMembers_iff {as bs : List (String × Json)} :
    sameMembers as bs = true ↔
      List.Forall₂ (fun a b => a.1 = b.1 ∧ sameValue a.2 b.2 = true) as bs := by
  induction as generalizing bs with
  | nil => cases bs <;> simp [sameMembers]
  | cons a as ih => cases bs <;> simp [sameMembers, ih]

theorem forall₂_apart_items {as bs : List Json} :
    List.Forall₂ (fun a b => sameValue a b = true ∧ ¬ MeetsAtEnd a b) as bs ↔
      sameItems as bs = true ∧ ¬ MeetsAtEnd (arr as) (arr bs) := by
  rw [sameItems_iff, List.forall₂_iff_zip, List.forall₂_iff_zip]
  constructor
  · rintro ⟨lengths, apart⟩
    refine ⟨⟨lengths, fun paired => (apart paired).1⟩, ?_⟩
    rintro (_ | _ | ⟨paired, meets⟩)
    exact (apart paired).2 meets
  · rintro ⟨⟨lengths, same⟩, apart⟩
    exact ⟨lengths, fun paired => ⟨same paired, fun meets => apart (.item paired meets)⟩⟩

theorem forall₂_apart_members {as bs : List (String × Json)} :
    List.Forall₂ (fun a b => a.1 = b.1 ∧ sameValue a.2 b.2 = true ∧ ¬ MeetsAtEnd a.2 b.2) as bs ↔
      sameMembers as bs = true ∧ ¬ MeetsAtEnd (obj as) (obj bs) := by
  rw [sameMembers_iff, List.forall₂_iff_zip, List.forall₂_iff_zip]
  constructor
  · rintro ⟨lengths, apart⟩
    refine ⟨⟨lengths, fun paired => ⟨(apart paired).1, (apart paired).2.1⟩⟩, ?_⟩
    rintro (_ | _ | _ | ⟨paired, meets⟩)
    exact (apart paired).2.2 meets
  · rintro ⟨⟨lengths, same⟩, apart⟩
    refine ⟨lengths, fun {a b} paired => ⟨(same paired).1, (same paired).2, fun meets => ?_⟩⟩
    obtain ⟨name, a⟩ := a
    obtain ⟨other, b⟩ := b
    obtain rfl : name = other := (same paired).1
    exact apart (.member paired meets)

section Scalars

variable {a b : Json} {n : Int} {x y : Binary64}

theorem units?_wholeFloat (x : Binary64) : (wholeFloat x).units? = some x.units := by
  rcases wholeFloat_cases x with ⟨n, written⟩ | same
  · rw [written, (wholeFloat_eq_int_iff.mp written).1.2]
    rfl
  · rw [same]
    rfl

/-- Only numbers have the key of a float. -/
theorem ne_wholeFloat (other : a.units? = none) (x : Binary64) : a ≠ wholeFloat x := by
  rintro rfl
  cases other.symm.trans (units?_wholeFloat x)

theorem key_iff_of_ne (differ : uniqueKey a ≠ uniqueKey b) (unequal : sameValue a b = false) :
    uniqueKey a = uniqueKey b ↔ sameValue a b = true ∧ ¬ MeetsAtEnd a b := by
  simp [differ, unequal]

theorem key_iff_of_apart (apart : ¬ MeetsAtEnd a b)
    (same : uniqueKey a = uniqueKey b ↔ sameValue a b = true) :
    uniqueKey a = uniqueKey b ↔ sameValue a b = true ∧ ¬ MeetsAtEnd a b := by
  simp [apart, same]

theorem uniqueKey_int_float_iff (finite : x.isFinite = true) :
    uniqueKey (int n) = uniqueKey (float x) ↔
      sameValue (int n) (float x) = true ∧ ¬ MeetsAtEnd (int n) (float x) := by
  have meets : MeetsAtEnd (int n) (float x) ↔ AtEnd n ∧ x.HasValue n :=
    ⟨fun | .integer ends value => ⟨ends, value⟩, fun ⟨ends, value⟩ => .integer ends value⟩
  have same : sameValue (int n) (float x) = true ↔ x.HasValue n := by
    show (n * (Binary64.oneUnits : Int) == x.units) = true ↔ _
    rw [beq_iff_eq, eq_comm, Binary64.HasValue, and_iff_right finite]
  show int n = wholeFloat x ↔ _
  rw [eq_comm, wholeFloat_eq_int_iff, same, meets]
  tauto

theorem uniqueKey_float_int_iff (finite : x.isFinite = true) :
    uniqueKey (float x) = uniqueKey (int n) ↔
      sameValue (float x) (int n) = true ∧ ¬ MeetsAtEnd (float x) (int n) := by
  have meets : MeetsAtEnd (float x) (int n) ↔ MeetsAtEnd (int n) (float x) :=
    ⟨fun | .float ends value => .integer ends value, fun | .integer ends value => .float ends value⟩
  have same : sameValue (float x) (int n) = sameValue (int n) (float x) :=
    Bool.beq_comm (a := x.units)
  rw [eq_comm, uniqueKey_int_float_iff finite, meets, same]

theorem uniqueKey_float_float_iff (finite : x.isFinite = true) (other : y.isFinite = true) :
    uniqueKey (float x) = uniqueKey (float y) ↔
      sameValue (float x) (float y) = true ∧ ¬ MeetsAtEnd (float x) (float y) := by
  refine key_iff_of_apart nofun ?_
  show wholeFloat x = wholeFloat y ↔ (x.units == y.units) = true
  rw [wholeFloat_eq_wholeFloat_iff finite other, beq_iff_eq]

theorem uniqueKey_int_int_iff {m : Int} : uniqueKey (int n) = uniqueKey (int m) ↔
    sameValue (int n) (int m) = true ∧ ¬ MeetsAtEnd (int n) (int m) := by
  refine key_iff_of_apart nofun ?_
  show int n = int m ↔ (n * (Binary64.oneUnits : Int) == m * (Binary64.oneUnits : Int)) = true
  rw [beq_iff_eq, int.injEq, mul_left_inj' Binary64.oneUnits_pos_int.ne']

end Scalars

mutual
/-- Equal keys are equal values, unless floats and integers of the same value meet at an end. -/
theorem uniqueKey_eq_iff (a b : Json) (finite : Finite a) (other : Finite b) :
    uniqueKey a = uniqueKey b ↔ sameValue a b = true ∧ ¬ MeetsAtEnd a b := by
  -- The key of a float may be an integer, so its form does not tell it from other kinds.
  cases a with
  | null =>
    cases b with
    | null => exact key_iff_of_apart nofun (by simp [sameValue])
    | float y => exact key_iff_of_ne (ne_wholeFloat rfl y) rfl
    | _ => exact key_iff_of_ne nofun rfl
  | bool own =>
    cases b with
    | bool => exact key_iff_of_apart nofun (by simp [uniqueKey, sameValue])
    | float y => exact key_iff_of_ne (ne_wholeFloat rfl y) rfl
    | _ => exact key_iff_of_ne nofun rfl
  | int n =>
    cases b with
    | int => exact uniqueKey_int_int_iff
    | float => exact uniqueKey_int_float_iff other
    | _ => exact key_iff_of_ne nofun rfl
  | float x =>
    cases b with
    | int => exact uniqueKey_float_int_iff finite
    | float => exact uniqueKey_float_float_iff finite other
    | _ => exact key_iff_of_ne (ne_wholeFloat rfl x).symm rfl
  | str own =>
    cases b with
    | str => exact key_iff_of_apart nofun (by simp [uniqueKey, sameValue])
    | float y => exact key_iff_of_ne (ne_wholeFloat rfl y) rfl
    | _ => exact key_iff_of_ne nofun rfl
  | arr as =>
    cases b with
    | arr bs =>
      rw [uniqueKey, uniqueKey, arr.injEq, uniqueKeys_eq_iff as bs finite other]
      exact forall₂_apart_items
    | float y => exact key_iff_of_ne (ne_wholeFloat rfl y) rfl
    | _ => exact key_iff_of_ne nofun rfl
  | obj as =>
    cases b with
    | obj bs =>
      rw [uniqueKey, uniqueKey, obj.injEq, uniqueMembers_eq_iff as bs finite other]
      exact forall₂_apart_members
    | float y => exact key_iff_of_ne (ne_wholeFloat rfl y) rfl
    | _ => exact key_iff_of_ne nofun rfl

theorem uniqueKeys_eq_iff : (as bs : List Json) → FiniteItems as → FiniteItems bs →
    (uniqueKeys as = uniqueKeys bs ↔
      List.Forall₂ (fun a b => sameValue a b = true ∧ ¬ MeetsAtEnd a b) as bs)
  | [], [], _, _ => by simp
  | [], _ :: _, _, _ => by simp [uniqueKeys]
  | _ :: _, [], _, _ => by simp [uniqueKeys]
  | a :: as, b :: bs, finite, other => by
    rw [uniqueKeys, uniqueKeys, List.cons.injEq, List.forall₂_cons,
      uniqueKey_eq_iff a b finite.1 other.1, uniqueKeys_eq_iff as bs finite.2 other.2]

theorem uniqueMembers_eq_iff : (as bs : List (String × Json)) → FiniteMembers as →
    FiniteMembers bs → (uniqueMembers as = uniqueMembers bs ↔
      List.Forall₂ (fun a b => a.1 = b.1 ∧ sameValue a.2 b.2 = true ∧ ¬ MeetsAtEnd a.2 b.2) as bs)
  | [], [], _, _ => by simp
  | [], _ :: _, _, _ => by simp [uniqueMembers]
  | _ :: _, [], _, _ => by simp [uniqueMembers]
  | (name, a) :: as, (other, b) :: bs, finite, others => by
    rw [uniqueMembers, uniqueMembers, List.cons.injEq, List.forall₂_cons, Prod.mk.injEq,
      uniqueKey_eq_iff a b finite.1 others.1, uniqueMembers_eq_iff as bs finite.2 others.2]
end

end Json

end SchemaSampler
