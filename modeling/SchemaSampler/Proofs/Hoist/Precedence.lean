import SchemaSampler.Proofs.Entries.Merged
import SchemaSampler.Proofs.Hoist.Rekeyed

/-!
# Precedence of hoisted members

An object is hoisted from four kinds of members: its ordinary ones, the additional entries, the
entries of the pattern groups and the members of the values in the `allOf` container. They are
sources of one merged map in this order, so what a name stands for is decided by the last source
that has it. Only an object without any other member may collapse into the last value of the
container.

Results:
1. `HoistedParts.assemble_of_plain`, `assemble_of_merged`: the two forms of an assembled object.
2. `mergedFrom_spliced`: the members outside the `allOf` container.
3. `hoist_precedence`: when an object collapses, and whose value every name has otherwise.
-/

namespace SchemaSampler

open Entries (MergedFrom)

variable {keys : SyntheticKeys}

/-! ## Sources -/

/-- The entries with hoisted values. -/
def hoistedEntries (keys : SyntheticKeys) (entries : Entries Json) : Entries Json :=
  entries.map fun entry => (entry.1, hoist keys entry.2)

@[simp] theorem names_hoistedEntries (keys : SyntheticKeys) (entries : Entries Json) :
    Entries.names (hoistedEntries keys entries) = Entries.names entries :=
  List.map_map

/-- The entries of the container under a key, none if it is missing or not an object. -/
def containerEntries (members : Entries Json) (key : String) : Entries Json :=
  HoistedParts.membersOf ((members.get? key).getD .null)

/-- The entries outside the `allOf` container, in increasing precedence: ordinary members,
additional entries, one source for every pattern group. -/
def splicedSources (keys : SyntheticKeys) (members : Entries Json) : List (Entries Json) :=
  hoistedEntries keys (members.filter fun member => !keys.contains member.1) ::
    hoistedEntries keys (containerEntries members keys.additionalProperties) ::
      (containerEntries members keys.patternProperties).map fun group =>
        hoistedEntries keys (HoistedParts.membersOf group.2)

/-- The hoisted values of the `allOf` container in the order of their keys. -/
def containerValues (keys : SyntheticKeys) (members : Entries Json) : List Json :=
  (containerEntries members keys.allOf).map fun slot => hoist keys slot.2

/-- The `allOf` container is an object and holds no hoisted object, and nothing stands besides. -/
def Collapses (keys : SyntheticKeys) (members : Entries Json) : Prop :=
  (∃ slots, members.get? keys.allOf = some (.obj slots)) ∧
    (∀ source ∈ splicedSources keys members, source = []) ∧
      ∀ value ∈ containerValues keys members, value.isObject = false

theorem hoistEntries_eq (raw : Json) :
    hoistEntries keys raw = hoistedEntries keys (HoistedParts.membersOf raw) := by
  cases raw with
  | obj members => exact hoistMembers_eq_map members
  | _ => rfl

theorem hoistGroups_eq (raw : Json) :
    hoistGroups keys raw = (HoistedParts.membersOf raw).map fun group =>
      hoistedEntries keys (HoistedParts.membersOf group.2) := by
  cases raw with
  | obj groups => simp [hoistGroups, hoistGroupList_eq_map, hoistEntries_eq, HoistedParts.membersOf]
  | _ => rfl

/-! ## Assembled objects -/

namespace HoistedParts

/-- The sources of the entries outside the `allOf` container. -/
def sources (parts : HoistedParts) : List (Entries Json) :=
  parts.ordinary :: parts.additional :: parts.groups

theorem mergedFrom_spliced {parts : HoistedParts} (sorted : parts.ordinary.Sorted) :
    MergedFrom parts.sources parts.spliced := by
  have merged := ((MergedFrom.single sorted).insertAll parts.additional).foldl_insertAll parts.groups
  simpa [sources, spliced] using merged

/-- Without objects to merge and with nothing else, the last value of the container remains. -/
theorem assemble_of_plain {parts : HoistedParts} {values : List Json}
    (found : parts.merged = some values) (empty : parts.spliced = [])
    (plain : ∀ value ∈ values, value.isObject = false) :
    parts.assemble = values.getLast?.getD (.obj []) := by
  have bare : (values.all fun value => !value.isObject) = true := by
    simpa using plain
  simp [assemble, found, empty, bare]

/-- In every other case the members of the values are merged into the entries outside. -/
theorem assemble_of_merged {parts : HoistedParts} {values : List Json}
    (found : parts.merged = some values)
    (other : parts.spliced ≠ [] ∨ ∃ value ∈ values, value.isObject = true) :
    parts.assemble = .obj ((values.map membersOf).foldl Entries.insertAll parts.spliced) := by
  have rich : (parts.spliced.isEmpty && values.all fun value => !value.isObject) = false := by
    rcases other with nonempty | ⟨value, listed, object⟩
    · simp [nonempty]
    · have stop : (values.all fun value => !value.isObject) = false := by
        simpa using ⟨value, listed, object⟩
      simp [stop]
  simp [assemble, found, rich, List.foldl_map]

theorem assemble_of_none {parts : HoistedParts} (none : parts.merged = none) :
    parts.assemble = .obj parts.spliced := by
  simp [assemble, none]

end HoistedParts

/-! ## Hoisted objects -/

section Sources

variable (distinct : keys.Distinct) {members : Entries Json}

include distinct

theorem sources_hoistParts : (hoistParts keys members).sources = splicedSources keys members := by
  have additional : (hoistParts keys members).additional =
      hoistedEntries keys (containerEntries members keys.additionalProperties) := by
    cases found : members.get? keys.additionalProperties with
    | none => simp [hoistParts_eq distinct, containerEntries, found, hoistedEntries,
        HoistedParts.membersOf]
    | some raw => simp [hoistParts_eq distinct, containerEntries, found, hoistEntries_eq]
  have groups : (hoistParts keys members).groups =
      (containerEntries members keys.patternProperties).map fun group =>
        hoistedEntries keys (HoistedParts.membersOf group.2) := by
    cases found : members.get? keys.patternProperties with
    | none => simp [hoistParts_eq distinct, containerEntries, found, HoistedParts.membersOf]
    | some raw => simp [hoistParts_eq distinct, containerEntries, found, hoistGroups_eq]
  rw [HoistedParts.sources, ordinary_eq, additional, groups]
  rfl

/-- The values of the container, when it is an object. -/
theorem merged_hoistParts :
    ((∃ slots, members.get? keys.allOf = some (.obj slots)) ∧
        (hoistParts keys members).merged = some (containerValues keys members)) ∨
      ((¬ ∃ slots, members.get? keys.allOf = some (.obj slots)) ∧
        (hoistParts keys members).merged = none ∧ containerValues keys members = []) := by
  cases found : members.get? keys.allOf with
  | none => simp [hoistParts_eq distinct, containerValues, containerEntries, found,
      HoistedParts.membersOf]
  | some raw =>
    cases raw <;>
      simp [hoistParts_eq distinct, containerValues, containerEntries, found, hoistContainer,
        hoistValues_eq_map, HoistedParts.membersOf]

theorem mergedFrom_spliced (sorted : members.Sorted) :
    MergedFrom (splicedSources keys members) (hoistParts keys members).spliced := by
  rw [← sources_hoistParts distinct]
  refine HoistedParts.mergedFrom_spliced ?_
  rw [ordinary_eq]
  exact List.pairwise_map.mpr (sorted.sublist List.filter_sublist)

/-- Every name of a hoisted object has the value of the last source with the name. Objects without
members outside the `allOf` container and without objects in it become its last value. -/
theorem hoist_precedence (sorted : members.Sorted) :
    (Collapses keys members →
      hoist keys (.obj members) = (containerValues keys members).getLast?.getD (.obj [])) ∧
    (¬ Collapses keys members →
      ∃ entries, hoist keys (.obj members) = .obj entries ∧
        MergedFrom (splicedSources keys members ++
          (containerValues keys members).map HoistedParts.membersOf) entries) := by
  have outside := mergedFrom_spliced distinct sorted
  rw [hoist]
  constructor
  · rintro ⟨object, bare, plain⟩
    rcases merged_hoistParts distinct with ⟨-, found⟩ | ⟨other, -⟩
    · exact HoistedParts.assemble_of_plain found (outside.eq_nil_iff.mpr bare) plain
    · exact absurd object other
  · intro rich
    rcases merged_hoistParts distinct with ⟨object, found⟩ | ⟨-, none, nothing⟩
    · refine ⟨_, HoistedParts.assemble_of_merged found ?_, outside.foldl_insertAll _⟩
      by_contra! poor
      refine rich ⟨object, outside.eq_nil_iff.mp poor.1, fun value listed => ?_⟩
      simpa using poor.2 value listed
    · refine ⟨_, HoistedParts.assemble_of_none none, ?_⟩
      simpa [nothing] using outside

end Sources

/-- An object in which every source replaces one member more than the source before it. -/
def layeredMembers : Entries Json :=
  [("a", .int 1), ("b", .int 1), ("c", .int 1), ("d", .int 1), ("e", .int 1),
    ("x", .obj [("b", .int 2), ("c", .int 2), ("d", .int 2), ("e", .int 2)]),
    ("y", .obj [("^[cd]$", .obj [("c", .int 3), ("d", .int 3)]),
      ("^[de]$", .obj [("d", .int 4), ("e", .int 4)])]),
    ("z", .obj [("0000", .int 0), ("0001", .obj [("e", .int 5)])])]

theorem layered_precedence :
    SyntheticKeys.Distinct ⟨"x", "y", "z"⟩ ∧ Entries.Sorted layeredMembers ∧
      ¬ Collapses ⟨"x", "y", "z"⟩ layeredMembers ∧
      hoist ⟨"x", "y", "z"⟩ (.obj layeredMembers) = .obj [("a", .int 1), ("b", .int 2),
        ("c", .int 3), ("d", .int 4), ("e", .int 5)] ∧
      MergedFrom (splicedSources ⟨"x", "y", "z"⟩ layeredMembers ++
          (containerValues ⟨"x", "y", "z"⟩ layeredMembers).map HoistedParts.membersOf)
        [("a", .int 1), ("b", .int 2), ("c", .int 3), ("d", .int 4), ("e", .int 5)] := by
  have distinct : SyntheticKeys.Distinct ⟨"x", "y", "z"⟩ := ⟨by decide, by decide, by decide⟩
  have sorted : Entries.Sorted layeredMembers := by
    unfold Entries.Sorted layeredMembers
    decide +kernel
  have rich : ¬ Collapses ⟨"x", "y", "z"⟩ layeredMembers := by
    rintro ⟨-, -, plain⟩
    exact absurd (plain (.obj [("e", .int 5)]) (.tail _ (.head _))) (by decide)
  obtain ⟨entries, hoisted, merged⟩ := (hoist_precedence distinct sorted).2 rich
  have value : hoist ⟨"x", "y", "z"⟩ (.obj layeredMembers) = .obj [("a", .int 1), ("b", .int 2),
      ("c", .int 3), ("d", .int 4), ("e", .int 5)] := rfl
  cases Json.obj.inj (hoisted.symm.trans value)
  exact ⟨distinct, sorted, rich, value, merged⟩

end SchemaSampler
