import SchemaSampler.Proofs.Compile.MemberKeys
import SchemaSampler.Proofs.Compile.Parts
import SchemaSampler.Proofs.Draw.Consecutive
import SchemaSampler.Proofs.Hoist.Precedence

/-!
# The order of merged members

The members of an `allOf` node are drawn in the order in which they are declared, into a container
that keeps them in the order of their keys. Hoisting merges them in the latter order. The two are
the same for up to 10000 members; with one more, the last member is no longer the one that wins.

Results:
1. `hoist_container`: an object that holds nothing but the container.
2. `merged_draw`: the draws that a hoisted value of the node is made of.
3. `all_of_draw`: how their values are merged, in the declared order if they are few.
4. `last_member_loses`: the last of 10001 members.
-/

namespace SchemaSampler

open Entries (MergedFrom)
open Draw (InTurn)
open HoistedParts (membersOf)

/-! ## The container -/

/-- Values as they are merged: the last one if none is an object, otherwise the members of all. -/
def MergesTo (values : List Json) (result : Json) : Prop :=
  ((∀ value ∈ values, value.isObject = false) → values.getLast? = some result) ∧
    ((∃ value ∈ values, value.isObject = true) →
      ∃ entries, result = .obj entries ∧ MergedFrom (values.map membersOf) entries)

section Container

variable {keys : SyntheticKeys} (notAdditional : keys.allOf ≠ keys.additionalProperties)
  (notPatterns : keys.allOf ≠ keys.patternProperties)

include notAdditional notPatterns

theorem hoistParts_container (slots : Entries Json) :
    hoistParts keys [(keys.allOf, .obj slots)] =
      { merged := some (slots.map fun slot => hoist keys slot.2) } := by
  simp [hoistParts, notAdditional, notPatterns, hoistContainer, hoistValues_eq_map]

theorem hoist_container {slots : Entries Json} (filled : slots ≠ []) :
    MergesTo (slots.map fun slot => hoist keys slot.2)
      (hoist keys (.obj [(keys.allOf, .obj slots)])) := by
  rw [hoist, hoistParts_container notAdditional notPatterns]
  constructor
  · intro plain
    rw [HoistedParts.assemble_of_plain rfl rfl plain]
    cases last : (slots.map fun slot => hoist keys slot.2).getLast? with
    | none => simp [filled] at last
    | some value => rfl
  · intro object
    refine ⟨_, HoistedParts.assemble_of_merged rfl (.inr object), ?_⟩
    exact MergedFrom.nil.foldl_insertAll _

end Container

namespace Compiler

/-! ## Draws of members -/

variable {compiler : Compiler} {bodies : Generator.Bodies} {cursor last : Cursor} {value : Json}

/-- The node draws its members in turn and hoists the container of their values. -/
theorem merged_draw {generators : List Generator} :
    Generator.draw compiler.options bodies
        (.map (compiler.merged generators) (hoist compiler.options.keys)) cursor =
          (.ok value, last) ↔
      ∃ raws, InTurn (generators.map (Generator.draw compiler.options bodies)) cursor raws last ∧
        value = hoist compiler.options.keys
          (.obj [(compiler.options.keys.allOf, .obj (memberSlots raws))]) := by
  have fields : (memberFields 0 generators).map (fun field =>
      Generator.draw compiler.options bodies field.2) =
        generators.map (Generator.draw compiler.options bodies) := by
    rw [← values_memberFields generators, List.map_map]
    simp
  have slots : ∀ raws, InTurn (generators.map (Generator.draw compiler.options bodies)) cursor raws
      last → Entries.ofList ((Entries.names (memberFields 0 generators)).zip raws) =
        memberSlots raws := by
    intro raws turns
    rw [names_memberFields, memberSlots, turns.length_eq, List.length_map]
  constructor
  · intro drawn
    obtain ⟨raw, record, rfl⟩ := Generator.draw_map_eq_ok drawn
    obtain ⟨values, outer, rfl⟩ := Generator.draw_record_eq_ok.mp record
    cases outer with
    | cons inner rest =>
      cases rest
      obtain ⟨raws, turns, rfl⟩ := Generator.draw_record_eq_ok.mp inner
      rw [fields] at turns
      rw [slots raws turns]
      exact ⟨raws, turns, rfl⟩
  · rintro ⟨raws, turns, rfl⟩
    have inner := Generator.draw_record_eq_ok.mpr ⟨raws, fields ▸ turns, rfl⟩
    rw [slots raws turns] at inner
    exact Generator.draw_map_of_ok _
      (Generator.draw_record_eq_ok.mpr ⟨[_], .cons inner .nil, rfl⟩)

theorem mergesTo_memberSlots {keys : SyntheticKeys} (distinct : keys.Distinct) {raws : List Json}
    (filled : raws ≠ []) : MergesTo (memberSlots (raws.map (hoist keys))).values
      (hoist keys (.obj [(keys.allOf, .obj (memberSlots raws))])) := by
  rw [memberSlots_map, Entries.values, List.map_map]
  exact hoist_container distinct.2.1.symm distinct.2.2.symm fun empty =>
    filled (memberSlots_eq_nil_iff.mp empty)

/-- The hoisted values of the members are merged in the order of their keys, which up to 10000
members is the order in which they are declared. -/
theorem all_of_draw (distinct : compiler.options.keys.Distinct) {members : List Node}
    (listed : members ≠ []) {generator : Generator}
    (compiled : compiler.compile (.allOf members) = .ok generator)
    (drawn : Generator.draw compiler.options bodies
      (.map generator (hoist compiler.options.keys)) cursor = (.ok value, last)) :
    ∃ generators raws,
      List.Forall₂ (fun member generator => compiler.compile member = .ok generator)
        members generators ∧
      InTurn (generators.map (Generator.draw compiler.options bodies)) cursor raws last ∧
      MergesTo (memberSlots (raws.map (hoist compiler.options.keys))).values value ∧
      (members.length ≤ 10000 → MergesTo (raws.map (hoist compiler.options.keys)) value) := by
  rw [compile_allOf] at compiled
  obtain ⟨generators, all, same⟩ := Except.bind_eq_ok.mp compiled
  cases same
  have each := Except.mapM_eq_ok all
  obtain ⟨raws, turns, rfl⟩ := merged_draw.mp drawn
  have count : raws.length = members.length := by
    simpa [each.length_eq] using turns.length_eq
  have filled : raws ≠ [] := by
    rintro rfl
    exact listed (List.length_eq_zero_iff.mp count.symm)
  have merges := mergesTo_memberSlots distinct filled
  refine ⟨generators, raws, each, turns, merges, fun few => ?_⟩
  rwa [memberSlots_of_few (by simpa [count] using few)] at merges

/-! ## Three members -/

/-- A compiler with the default options. -/
def plainCompiler : Compiler := ⟨{}, {}, .obj [], []⟩

/-- Two objects with a common name around a scalar. -/
def overlappingValues : List Json :=
  [.obj [("a", .int 1), ("b", .int 1)], .int 2, .obj [("b", .int 3)]]

theorem overlapping_all_of_draw :
    plainCompiler.options.keys.Distinct ∧ overlappingValues.map Node.constant ≠ [] ∧
      plainCompiler.compile (.allOf (overlappingValues.map .constant)) =
        .ok (plainCompiler.merged (overlappingValues.map .constant)) ∧
      Generator.draw plainCompiler.options [] (.map
          (plainCompiler.merged (overlappingValues.map .constant))
          (hoist plainCompiler.options.keys)) ⟨.cycle #[0], 0⟩ =
        (.ok (.obj [("a", .int 1), ("b", .int 3)]), ⟨.cycle #[0], 0⟩) ∧
      ∃ generators raws,
        List.Forall₂ (fun member generator => plainCompiler.compile member = .ok generator)
          (overlappingValues.map .constant) generators ∧
        InTurn (generators.map (Generator.draw plainCompiler.options [])) ⟨.cycle #[0], 0⟩ raws
          ⟨.cycle #[0], 0⟩ ∧
        MergesTo (raws.map (hoist plainCompiler.options.keys))
          (.obj [("a", .int 1), ("b", .int 3)]) := by
  have distinct : plainCompiler.options.keys.Distinct := ⟨by decide, by decide, by decide⟩
  have listed : overlappingValues.map Node.constant ≠ [] := List.cons_ne_nil _ _
  have compiled : plainCompiler.compile (.allOf (overlappingValues.map .constant)) =
      .ok (plainCompiler.merged (overlappingValues.map .constant)) := rfl
  have drawn : Generator.draw plainCompiler.options [] (.map
      (plainCompiler.merged (overlappingValues.map .constant)) (hoist plainCompiler.options.keys))
      ⟨.cycle #[0], 0⟩ = (.ok (.obj [("a", .int 1), ("b", .int 3)]), ⟨.cycle #[0], 0⟩) := rfl
  obtain ⟨generators, raws, each, turns, -, merges⟩ := all_of_draw distinct listed compiled drawn
  exact ⟨distinct, listed, compiled, drawn, generators, raws, each, turns, merges (by decide)⟩

/-! ## Many members -/

/-- Zeros and a one. -/
def zerosAndOne (zeros : Nat) : List Json := List.replicate zeros (.int 0) ++ [.int 1]

theorem plain_zerosAndOne {zeros : Nat} : ∀ value ∈ zerosAndOne zeros, value.isObject = false := by
  intro value listed
  rcases List.mem_append.mp listed with zero | one
  · rw [List.eq_of_mem_replicate zero]
    rfl
  · rw [List.mem_singleton.mp one]
    rfl

theorem getLast?_zerosAndOne (zeros : Nat) : (zerosAndOne zeros).getLast? = some (.int 1) := by
  simp [zerosAndOne]

theorem hoist_zerosAndOne (keys : SyntheticKeys) (zeros : Nat) :
    (zerosAndOne zeros).map (hoist keys) = zerosAndOne zeros := by
  simp [zerosAndOne, hoist]

/-- If the key of the last member comes before the one of its predecessor, the latter stands last
in the container. -/
theorem last_slot_zerosAndOne {count : Nat} (few : count < 10000)
    (wraps : memberKey (count + 1) < memberKey count) :
    (memberSlots (zerosAndOne (count + 1))).getLast? = some (memberKey count, .int 0) := by
  have length : (zerosAndOne (count + 1)).length = count + 2 := by
    simp [zerosAndOne]
  have perm := memberSlots_perm (zerosAndOne (count + 1))
  refine (sorted_memberSlots _).getLast?_eq (perm.mem_iff.mpr ?_) ?_
  · refine List.mem_of_getElem? (i := count) ?_
    simp [memberKeys, zerosAndOne]
  · intro entry present above
    have named := Entries.mem_names_of_mem (perm.mem_iff.mp present)
    rw [names_keyed, length] at named
    obtain ⟨place, inside, same⟩ := List.mem_map.mp named
    rw [← same] at above
    have bound := List.mem_range.mp inside
    rcases Nat.lt_trichotomy place count with less | rfl | greater
    · exact lt_asymm above (memberKey_lt less few)
    · exact lt_irrefl _ above
    · have next : place = count + 1 := by omega
      exact lt_asymm above (next ▸ wraps)

theorem compile_constants (compiler : Compiler) (values : List Json) :
    compiler.compile (.allOf (values.map .constant)) =
      .ok (compiler.merged (values.map .constant)) := by
  have each : (values.map Node.constant).mapM compiler.compile =
      .ok (values.map Generator.constant) := by
    induction values with
    | nil => rfl
    | cons value rest ih => simp [compile, ih]; rfl
  rw [compile_allOf, each]
  rfl

/-- The last one of 10001 members is drawn, but the member before it decides the value. -/
theorem last_member_loses :
    plainCompiler.options.keys.Distinct ∧
      plainCompiler.compile (.allOf ((zerosAndOne 10000).map .constant)) =
        .ok (plainCompiler.merged ((zerosAndOne 10000).map .constant)) ∧
      ∀ cursor,
        InTurn (((zerosAndOne 10000).map .constant).map (Generator.draw plainCompiler.options []))
          cursor (zerosAndOne 10000) cursor ∧
        Generator.draw plainCompiler.options [] (.map
            (plainCompiler.merged ((zerosAndOne 10000).map .constant))
            (hoist plainCompiler.options.keys)) cursor = (.ok (.int 0), cursor) ∧
        ¬ MergesTo ((zerosAndOne 10000).map (hoist plainCompiler.options.keys)) (.int 0) := by
  have distinct : plainCompiler.options.keys.Distinct := ⟨by decide, by decide, by decide⟩
  refine ⟨distinct, compile_constants _ _, fun cursor => ?_⟩
  have turns : InTurn (((zerosAndOne 10000).map .constant).map
      (Generator.draw plainCompiler.options [])) cursor (zerosAndOne 10000) cursor :=
    Generator.constants_inTurn _
  refine ⟨turns, merged_draw.mpr ⟨_, turns, ?_⟩, fun declared => ?_⟩
  · have filled : zerosAndOne 10000 ≠ [] := List.append_ne_nil_of_right_ne_nil _ (by simp)
    have merges := mergesTo_memberSlots distinct filled
    rw [hoist_zerosAndOne] at merges
    have stands := merges.1 fun value listed =>
      plain_zerosAndOne value ((values_memberSlots_perm _).mem_iff.mp listed)
    rw [Entries.values, List.getLast?_map, last_slot_zerosAndOne (by decide) memberKey_wraps] at stands
    exact Option.some.inj stands
  · rw [hoist_zerosAndOne] at declared
    cases (getLast?_zerosAndOne 10000).symm.trans (declared.1 plain_zerosAndOne)

end Compiler

end SchemaSampler
