import SchemaSampler.Catalog
import SchemaSampler.Proofs.FirstOccurrences

/-!
# Catalogs by size

A catalog is collected draw by draw, and a value that has come before is dropped. So it consists of
the first occurrences among all that was drawn, and the catalog of more draws from the same seed
begins with it, whatever the provider draws.

Results:
1. `Provider.several_add`: the draws of a longer run begin with those of a shorter one.
2. `Catalog.reverse_distinctDraws`: what is kept are the first occurrences.
3. `Catalog.materializeFrom_prefix`: catalogs of two sizes.
-/

namespace SchemaSampler

namespace Provider

variable (draw : Random String)

theorem length_several (count : Nat) (source : Source) :
    (several draw count source).1.length = count := by
  induction count generalizing source with
  | zero => rfl
  | succ count ih => exact congrArg Nat.succ (ih (draw source).2)

/-- The draws of a longer run begin with those of a shorter one. -/
theorem several_add (count further : Nat) (source : Source) :
    (several draw (count + further) source).1 =
      (several draw count source).1 ++ (several draw further (several draw count source).2).1 := by
  induction count generalizing source with
  | zero => rw [Nat.zero_add]; rfl
  | succ count ih =>
    rw [Nat.succ_add]
    exact congrArg ((draw source).1 :: ·) (ih (draw source).2)

end Provider

namespace Catalog

/-- What is kept are the first occurrences among what was drawn before and what is drawn now. -/
theorem reverse_distinctDraws (draw : Random String) (count : Nat) {drawn kept : List String}
    (first : kept.reverse = drawn.eraseDups) (source : Source) :
    (distinctDraws draw count kept source).1.reverse =
      (drawn ++ (Provider.several draw count source).1).eraseDups := by
  induction count generalizing drawn kept source with
  | zero =>
    show kept.reverse = (drawn ++ []).eraseDups
    rw [List.append_nil, first]
  | succ count ih =>
    let value := (draw source).1
    -- The next value is kept if it is new, which makes the first occurrences of one more draw.
    have next : (if kept.contains value then kept else value :: kept).reverse =
        (drawn ++ [value]).eraseDups := by
      have known : kept.contains value = true ↔ value ∈ drawn := by
        rw [List.contains_iff_mem, ← List.mem_reverse, first, List.mem_eraseDups]
      rw [eraseDups_concat, ← first, ← if_congr known rfl rfl]
      split
      · rfl
      · exact List.reverse_cons
    refine (ih next (draw source).2).trans ?_
    rw [List.append_assoc]
    rfl

variable {providers : List Provider} {name : String} {provider : Provider}

theorem materializeFrom_eq (supported : Provider.findIn? providers name = some provider)
    {size : Nat} (positive : 1 ≤ size) (seed : UInt64) :
    materializeFrom providers name size seed =
      .ok (Provider.several provider.draw size (Source.ofSeed seed)).1.eraseDups := by
  unfold materializeFrom Provider.ofNameIn
  rw [supported]
  show (if size = 0 then _ else _) = _
  rw [if_neg (Nat.ne_of_gt positive)]
  have nothing : ([] : List String).reverse = ([] : List String).eraseDups := rfl
  exact congrArg Except.ok (reverse_distinctDraws provider.draw size nothing _)

/-- The catalog of a supported provider, whatever it draws: the first occurrences, in order, among as
many values of the seeded source as the size says. So there is at least one value, none comes twice,
and a larger catalog of the same seed begins with the smaller one. -/
theorem materializeFrom_prefix (supported : Provider.findIn? providers name = some provider)
    (seed : UInt64) {size larger : Nat} (positive : 1 ≤ size) (more : size ≤ larger) :
    ∃ values further, materializeFrom providers name size seed = .ok values ∧
      materializeFrom providers name larger seed = .ok further ∧
      values ≠ [] ∧ values.Nodup ∧ values.length ≤ size ∧
      values = (Provider.several provider.draw size (Source.ofSeed seed)).1.eraseDups ∧
      values <+: further := by
  let drawn := (Provider.several provider.draw size (Source.ofSeed seed)).1
  have count : drawn.length = size := Provider.length_several _ _ _
  refine ⟨drawn.eraseDups, _, materializeFrom_eq supported positive seed,
    materializeFrom_eq supported (positive.trans more) seed, fun none => ?_,
    nodup_eraseDups drawn, (length_eraseDups_le drawn).trans count.le, rfl, ?_⟩
  · have stocked : drawn ≠ [] := List.ne_nil_of_length_pos (count ▸ positive)
    have lost := List.mem_eraseDups.mpr (List.head_mem stocked)
    rw [none] at lost
    cases lost
  · obtain ⟨rest, rfl⟩ := Nat.exists_eq_add_of_le more
    rw [Provider.several_add]
    exact eraseDups_prefix drawn _

/-- Two catalogs of random identifiers. -/
theorem identifiers_prefix :
    Provider.find? "random.uuid" = some ⟨"random.uuid", Random.uuid⟩ ∧
    ∃ values further, materialize "random.uuid" 2 7 = .ok values ∧
      materialize "random.uuid" 3 7 = .ok further ∧ values ≠ [] ∧ values.Nodup ∧
      values.length ≤ 2 ∧
      values = (Provider.several Random.uuid 2 (Source.ofSeed 7)).1.eraseDups ∧
      values <+: further := by
  have supported : Provider.find? "random.uuid" = some ⟨"random.uuid", Random.uuid⟩ := rfl
  exact ⟨supported, materializeFrom_prefix supported 7 (by decide) (by decide)⟩

end Catalog

end SchemaSampler
