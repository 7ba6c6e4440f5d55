import SchemaSampler.Proofs.Compile.Objects
import SchemaSampler.Proofs.Hoist.Parts

/-!
# Hoisted objects

A raw object without patterns has ordinary members and at most the container of additional ones.
Hoisting makes one object of both: it has all ordinary names, and the additional entries never
replace a member because their names are not reserved.

Results:
1. `hoist_of_open`: hoisting such an object joins its two parts.
2. `ObjectPieces.hoisted_record`: the members of a hoisted record and where they come from.
-/

namespace SchemaSampler

variable {keys : SyntheticKeys}

/-! ## Objects with additional entries only -/

/-- The key is ordinary or that of the additional entries. -/
def IsOpen (keys : SyntheticKeys) (key : String) : Prop :=
  keys.contains key = false ∨ key = keys.additionalProperties

theorem hoistParts_of_open {members : List (String × Json)}
    (each : ∀ member ∈ members, IsOpen keys member.1) :
    (hoistParts keys members).groups = [] ∧ (hoistParts keys members).merged = none := by
  induction members with
  | nil => exact ⟨rfl, rfl⟩
  | cons member rest ih =>
    obtain ⟨key, value⟩ := member
    have later := ih fun other present => each other (List.mem_cons_of_mem _ present)
    rw [hoistParts]
    cases each (key, value) List.mem_cons_self with
    | inr additional => simpa only [if_pos additional] using later
    | inl ordinary =>
      obtain ⟨notAdditional, notPattern, notMerged⟩ := SyntheticKeys.contains_eq_false.mp ordinary
      simpa only [if_neg notAdditional, if_neg notPattern, if_neg notMerged] using later

theorem hoist_of_open {members : List (String × Json)}
    (each : ∀ member ∈ members, IsOpen keys member.1) :
    hoist keys (.obj members) = .obj ((hoistParts keys members).ordinary.insertAll
      (hoistParts keys members).additional) := by
  obtain ⟨ungrouped, unmerged⟩ := hoistParts_of_open each
  rw [hoist, HoistedParts.assemble, unmerged, HoistedParts.spliced, ungrouped]
  rfl

/-! ## Records -/

namespace Compiler.ObjectPieces

variable {compiler : Compiler} {parts : ObjectParts} {pieces : ObjectPieces compiler parts}
  {names : List String} {reach : Nat → Json → Prop} {drawn : Json}

/-- Without patterns there are no groups. -/
theorem groups_eq_nil (built : pieces.Compiled) (unpatterned : parts.patterns = []) :
    pieces.groups = [] := by
  have groups := built.groups
  rw [unpatterned] at groups
  exact (Except.ok.inj groups).symm

/-- The hoisted member comes from a field of the record. -/
def IsField (pieces : ObjectPieces compiler parts) (names : List String)
    (reach : Nat → Json → Prop) (name : String) (raw : Json) : Prop :=
  name ∈ names ∧ ∃ field, Entries.get? pieces.fields name = some field ∧
    field.Yields compiler.options reach raw

/-- The hoisted member comes from the additional entries. -/
def IsFurther (pieces : ObjectPieces compiler parts) (reach : Nat → Json → Prop) (name : String)
    (raw : Json) : Prop :=
  name ∉ pieces.reserved ∧ ∃ values, pieces.additional = some values ∧
    values.Yields compiler.options reach raw

/-- A hoisted record is an object with all its names; each member is a field or a further entry. -/
theorem hoisted_record (built : pieces.Compiled) (unpatterned : parts.patterns = [])
    (plain : ∀ name ∈ pieces.reserved, compiler.options.keys.contains name = false)
    (known : names ⊆ pieces.reserved)
    (yielded : (pieces.record names).Yields compiler.options reach drawn) :
    ∃ members, hoist compiler.options.keys drawn = .obj members ∧
      names ⊆ Entries.names members ∧
      ∀ name value, (name, value) ∈ members → ∃ raw, value = hoist compiler.options.keys raw ∧
        (pieces.IsField names reach name raw ∨ pieces.IsFurther reach name raw) := by
  obtain ⟨raws, rfl, each, present⟩ := record_members yielded
  -- Without groups there is no container but that of the additional entries.
  have container : ∀ container ∈ pieces.containers, ∃ values, pieces.additional = some values ∧
      container = (compiler.options.keys.additionalProperties,
        ObjectParts.additionalEntries compiler.options pieces.reserved pieces.matchers values) := by
    intro container stands
    exact (mem_containers stands).resolve_right fun ⟨_, grouped⟩ =>
      grouped (groups_eq_nil built unpatterned)
  have shape : ∀ member ∈ raws, IsOpen compiler.options.keys member.1 := by
    intro member listed
    rcases each member listed with ⟨own, -⟩ | ⟨_, stands, named, -⟩
    · exact .inl (plain _ (known own))
    · obtain ⟨values, -, rfl⟩ := container _ stands
      exact .inr named.symm
  refine ⟨_, hoist_of_open shape, fun name own => ?_, fun name value listed => ?_⟩
  · obtain ⟨member, there, rfl⟩ := List.mem_map.mp (present name own (known own))
    have kept := mem_ordinary.mpr ⟨member, there, plain _ (known own), rfl⟩
    exact Entries.mem_names_insertAll.mpr (.inl (List.mem_map.mpr ⟨_, kept, rfl⟩))
  · rcases Entries.mem_of_mem_insertAll listed with outside | additional
    · obtain ⟨member, there, ordinary, same⟩ := mem_ordinary.mp outside
      cases same
      refine ⟨member.2, rfl, .inl ?_⟩
      -- An ordinary member is a field because the container has a synthetic key.
      rcases each member there with field | ⟨_, stands, named, -⟩
      · exact field
      · obtain ⟨values, -, rfl⟩ := container _ stands
        simp [← named] at ordinary
    · obtain ⟨raw, there, hoisted⟩ := of_mem_additional additional
      obtain ⟨entries, entry, rfl, inside, same⟩ := mem_hoistEntries hoisted
      cases same
      refine ⟨entry.2, rfl, .inr ?_⟩
      rcases each _ there with ⟨own, -⟩ | ⟨_, stands, -, holds⟩
      · have ordinary := plain _ (known own)
        simp at ordinary
      · obtain ⟨values, extra, rfl⟩ := container _ stands
        obtain ⟨_, same, -, admitted⟩ := holds
        cases same
        obtain ⟨admits, -, value⟩ := admitted entry inside
        exact ⟨(admitsKey_iff.mp admits).1, values, extra, value⟩

end Compiler.ObjectPieces

end SchemaSampler
