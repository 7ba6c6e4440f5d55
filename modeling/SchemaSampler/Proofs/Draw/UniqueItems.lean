import SchemaSampler.Proofs.Draw.Arrays
import SchemaSampler.Proofs.Hoist.Parts

/-!
# Distinct items

An array of distinct items lists items with different comparison keys. Hoisted, no two of them are
the same value, except where a float and an integer of the same value meet at an end of the
integers.

Results:
1. `firstOccurrences_pairwise`: no two of the items listed have the same key.
2. `array_items_apart`: what validation finds among the items of a drawn array.
3. `ends_drawn_together`: a float and an integer that are the same value in one array.
-/

namespace SchemaSampler

open Draw

/-- The validator's check succeeds where no two items are the same value. -/
theorem Json.distinctValues_of_pairwise {values : List Json}
    (apart : values.Pairwise fun a b => sameValue a b = false) : distinctValues values = true := by
  induction values with
  | nil => rfl
  | cons value rest ih =>
    obtain ⟨first, others⟩ := List.pairwise_cons.mp apart
    rw [distinctValues, ih others, Bool.and_true, Bool.not_eq_true', List.any_eq_false]
    exact fun other present => Bool.eq_false_iff.mp (first other present)

theorem firstOccurrences_pairwise (keys : SyntheticKeys) (drawn : List Json) :
    (firstOccurrences keys drawn).Pairwise fun a b =>
      comparisonKey keys a ≠ comparisonKey keys b := by
  induction drawn using List.reverseRecOn with
  | nil => exact .nil
  | append_singleton drawn item ih =>
    rw [firstOccurrences_concat]
    split
    next => exact ih
    next new =>
      refine List.pairwise_append.mpr
        ⟨ih, List.pairwise_singleton _ _, fun found present _ last => ?_⟩
      obtain rfl := List.mem_singleton.mp last
      intro same
      exact new (List.contains_iff_mem.mpr (List.mem_map.mpr ⟨found, present, same⟩))

namespace Generator

variable {options : Options} {bodies : Bodies} {items : Generator} {least most : Nat}
  {cursor last : Cursor} {raw : Json}

/-- After hoisting, items of a drawn array are the same value at most where a float and an integer
meet at an end of the integers; without such a pair the validator finds all items distinct. -/
theorem array_items_apart
    (drawn : (draw options bodies (.array items least most true) cursor).1 = .ok raw) :
    ∃ values, hoist options.keys raw = .arr values ∧
      ((∀ value ∈ values, value.Finite) →
        values.Pairwise (fun a b => Json.sameValue a b = true → Json.MeetsAtEnd a b) ∧
        (values.Pairwise (fun a b => ¬ Json.MeetsAtEnd a b) →
          Json.distinctValues values = true)) := by
  obtain ⟨last, ran⟩ : ∃ last, draw options bodies (.array items least most true) cursor =
    (.ok raw, last) := ⟨_, Prod.ext drawn rfl⟩
  have run := ran
  rw [draw_eq, drawWith] at run
  obtain ⟨length, start, sized, -⟩ := bind_eq_ok run
  obtain ⟨found, -, -, -, -, -, rfl⟩ := ((array_listsDistinct sized).ok_iff raw last).mp ran
  refine ⟨(firstOccurrences options.keys found).map (hoist options.keys), ?_, fun finite => ?_⟩
  · rw [hoist, hoistItems_eq_map]
  · have keys : ((firstOccurrences options.keys found).map (hoist options.keys)).Pairwise
        fun a b => uniqueKey a ≠ uniqueKey b :=
      List.pairwise_map.mpr (firstOccurrences_pairwise options.keys found)
    have apart := keys.imp_of_mem (S := fun a b =>
        Json.sameValue a b = true → Json.MeetsAtEnd a b) fun {a b} own other differ same => by
      by_contra meets
      exact differ ((Json.uniqueKey_eq_iff a b (finite a own) (finite b other)).mpr ⟨same, meets⟩)
    refine ⟨apart, fun none => Json.distinctValues_of_pairwise ?_⟩
    exact (apart.and none).imp fun both => Bool.eq_false_iff.mpr fun same => both.2 (both.1 same)

/-! A float inside an array is a repetition of the integer inside an array. -/

/-- Arrays of one, of one as a float and of two. -/
def nestedOnes : Generator :=
  .enumeration "enum" [.arr [.int 1], .arr [.float .one], .arr [.int 2]]

theorem draw_nestedOnes : (draw {} [] (.array nestedOnes 2 2 true) onesCursor).1 =
    .ok (.arr [.arr [.int 1], .arr [.int 2]]) := by
  have listed : firstOccurrences ({} : Options).keys
      [.arr [.int 1], .arr [.float .one], .arr [.int 2]] = [.arr [.int 1], .arr [.int 2]] :=
    eq_of_beq (by decide +kernel)
  exact array_drawn rfl ⟨_, stream_cons.mpr ⟨_, rfl, stream_cons.mpr ⟨_, rfl, stream_cons.mpr
    ⟨_, rfl, stream_nil.mpr rfl⟩⟩⟩⟩ listed rfl (by decide +kernel) (by decide +kernel)
    (by decide +kernel)

/-- The array of the three has the arrays of one and of two. -/
theorem nestedOnes_apart :
    (draw {} [] (.array nestedOnes 2 2 true) onesCursor).1 =
        .ok (.arr [.arr [.int 1], .arr [.int 2]]) ∧
      Json.distinctValues [.arr [.int 1], .arr [.int 2]] = true := by
  refine ⟨draw_nestedOnes, ?_⟩
  obtain ⟨values, hoisted, apart⟩ := array_items_apart draw_nestedOnes
  obtain rfl : [.arr [.int 1], .arr [.int 2]] = values := Json.arr.inj hoisted
  refine (apart ?_).2 ?_
  · simp [Json.Finite, Json.FiniteItems]
  · refine List.pairwise_pair.mpr ?_
    rintro (_ | _ | ⟨paired, meets⟩)
    cases List.mem_singleton.mp paired
    cases meets

/-! The two ways to write `2 ^ 63` have different keys. -/

/-- An integer and the float of the same value. -/
def endValues : List Json :=
  [.int 0x8000000000000000, .float (.ofMagnitude false 0x43E0000000000000)]

/-- A source that draws a size, the integer and the float. -/
def endsCursor : Cursor := ⟨.cycle #[0, 0, 0xFFFFFFFF], 0⟩

/-- An array may hold the integer and the float, which validation finds to be the same value. -/
theorem ends_drawn_together :
    (draw {} [] (.array (.enumeration "enum" endValues) 2 2 true) endsCursor).1 =
        .ok (.arr endValues) ∧
      hoist ({} : Options).keys (.arr endValues) = .arr endValues ∧
      Json.distinctValues endValues = false := by
  have listed : firstOccurrences ({} : Options).keys endValues = endValues :=
    eq_of_beq (by decide +kernel)
  refine ⟨?_, eq_of_beq (by decide +kernel), by decide +kernel⟩
  exact array_drawn rfl ⟨_, stream_cons.mpr ⟨_, rfl, stream_cons.mpr ⟨_, rfl, stream_nil.mpr rfl⟩⟩⟩
    listed rfl (by decide +kernel) (by decide +kernel) (by decide +kernel)

end Generator

end SchemaSampler
