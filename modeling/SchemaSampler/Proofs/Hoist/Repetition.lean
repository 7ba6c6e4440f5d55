import SchemaSampler.Proofs.Hoist.FixedPoints
import SchemaSampler.Proofs.Hoist.Rekeyed

/-!
# Hoisting twice

Hoisting splices the entries of a container into the object around it and does not look at their
names. An entry under a synthetic key becomes a member under this key, and the next round takes it
for a container. Values in which nothing like this happens are hoisted for good in one round.

Results:
1. `Json.Surfaces`: a synthetic key comes to the top of a value.
2. `surfaces_iff`: the hoisted value has a synthetic key at the top just where one surfaces.
3. `hoist_twice`: one round suffices if no such key surfaces on the way, and not if one surfaces at
   the top.
4. `nested_containers_hoist_twice`: a container in a container takes two rounds.
-/

namespace SchemaSampler

open Validator

variable {keys : SyntheticKeys}

/-! ## What hoisting visits -/

namespace Json

/-- Hoisting splices the entry of a container into the object around it. -/
inductive Splices (keys : SyntheticKeys) : Json → String → Json → Prop
  | additional {members entries : Entries Json} {name : String} {part : Json} :
      members.get? keys.additionalProperties = some (.obj entries) → (name, part) ∈ entries →
      Splices keys (.obj members) name part
  | patterned {members groups entries : Entries Json} {text name : String} {part : Json} :
      members.get? keys.patternProperties = some (.obj groups) → (text, .obj entries) ∈ groups →
      (name, part) ∈ entries → Splices keys (.obj members) name part

/-- Hoisting merges the member of an `allOf` container into the object around it. -/
inductive Merges (keys : SyntheticKeys) : Json → Json → Prop
  | slot {members slots : Entries Json} {name : String} {part : Json} :
      members.get? keys.allOf = some (.obj slots) → (name, part) ∈ slots →
      Merges keys (.obj members) part

/-- Hoisting a value hoists the part of it first. -/
inductive Visits (keys : SyntheticKeys) : Json → Json → Prop
  | item {items : List Json} {part : Json} : part ∈ items → Visits keys (.arr items) part
  | ordinary {members : Entries Json} {name : String} {part : Json} : (name, part) ∈ members →
      keys.contains name = false → Visits keys (.obj members) part
  | spliced {value part : Json} {name : String} : Splices keys value name part →
      Visits keys value part
  | merged {value part : Json} : Merges keys value part → Visits keys value part

/-- A synthetic key comes to the top of the value when it is hoisted. -/
inductive Surfaces (keys : SyntheticKeys) : Json → Prop
  | spliced {value part : Json} {name : String} : Splices keys value name part →
      keys.contains name = true → Surfaces keys value
  | merged {value part : Json} : Merges keys value part → Surfaces keys part → Surfaces keys value

/-- Nowhere in the value a synthetic key comes to the top. -/
def Calm (keys : SyntheticKeys) (value : Json) : Prop :=
  ∀ part, Relation.ReflTransGen (Visits keys) value part → ¬ part.Surfaces keys

theorem Calm.visited {value part : Json} (calm : value.Calm keys) (visits : Visits keys value part) :
    part.Calm keys :=
  fun inner below => calm inner (.head visits below)

theorem Calm.intro {value : Json} (quiet : ¬ value.Surfaces keys)
    (parts : ∀ part, Visits keys value part → part.Calm keys) : value.Calm keys := by
  intro part below
  rcases below.cases_head with rfl | ⟨next, visits, rest⟩
  · exact quiet
  · exact parts next visits part rest

theorem FreeOf.contains_eq_false {members : Entries Json} (free : (Json.obj members).FreeOf keys)
    {name : String} {value : Json} (found : members.get? name = some value) :
    keys.contains name = false := by
  cases free with
  | obj names _ => exact names _ (Entries.mem_of_get?_eq_some found)

/-- Without synthetic keys nothing is spliced. -/
theorem FreeOf.not_splices {value part : Json} {name : String} (free : value.FreeOf keys) :
    ¬ Splices keys value name part := by
  rintro (⟨found, -⟩ | ⟨found, -, -⟩)
  · exact absurd (free.contains_eq_false found) (by simp)
  · exact absurd (free.contains_eq_false found) (by simp)

theorem FreeOf.not_merges {value part : Json} (free : value.FreeOf keys) :
    ¬ Merges keys value part := by
  rintro ⟨found, -⟩
  exact absurd (free.contains_eq_false found) (by simp)

theorem FreeOf.visited {value part : Json} (free : value.FreeOf keys)
    (visits : Visits keys value part) : part.FreeOf keys := by
  cases visits with
  | item present =>
    cases free with
    | arr each => exact each part present
  | ordinary present =>
    cases free with
    | obj _ values => exact values _ present
  | spliced splices => exact absurd splices free.not_splices
  | merged merges => exact absurd merges free.not_merges

/-- A value without synthetic keys is calm. -/
theorem FreeOf.calm {value : Json} (free : value.FreeOf keys) : value.Calm keys := by
  intro part below
  have inner : part.FreeOf keys := by
    induction below with
    | refl => exact free
    | tail _ visits ih => exact ih.visited visits
  rintro (⟨splices, -⟩ | ⟨merges, -⟩)
  · exact inner.not_splices splices
  · exact inner.not_merges merges

theorem Splices.nodes_lt {value part : Json} {name : String} (splices : Splices keys value name part) :
    nodes part < nodes value := by
  cases splices with
  | additional found present =>
    exact (nodes_lt_of_member present).trans
      (nodes_lt_of_member (Entries.mem_of_get?_eq_some found))
  | patterned found listed present =>
    exact (nodes_lt_of_member present).trans ((nodes_lt_of_member listed).trans
      (nodes_lt_of_member (Entries.mem_of_get?_eq_some found)))

theorem Merges.nodes_lt {value part : Json} (merges : Merges keys value part) :
    nodes part < nodes value := by
  obtain ⟨found, present⟩ := merges
  exact (nodes_lt_of_member present).trans (nodes_lt_of_member (Entries.mem_of_get?_eq_some found))

end Json

/-! ## Parts and where they come from -/

theorem mem_hoistEntries_iff {raw : Json} {name : String} {value : Json} :
    (name, value) ∈ hoistEntries keys raw ↔
      ∃ entries part, raw = .obj entries ∧ (name, part) ∈ entries ∧ value = hoist keys part := by
  constructor
  · intro present
    obtain ⟨entries, member, rfl, listed, ⟨⟩⟩ := mem_hoistEntries present
    exact ⟨entries, member.2, rfl, listed, rfl⟩
  · rintro ⟨entries, part, rfl, listed, rfl⟩
    rw [hoistEntries, hoistMembers_eq_map]
    exact List.mem_map.mpr ⟨_, listed, rfl⟩

theorem mem_hoistGroups_iff {raw : Json} {group : Entries Json} :
    group ∈ hoistGroups keys raw ↔
      ∃ groups text inner, raw = .obj groups ∧ (text, inner) ∈ groups ∧
        group = hoistEntries keys inner := by
  constructor
  · intro present
    obtain ⟨groups, member, rfl, listed, rfl⟩ := mem_hoistGroups present
    exact ⟨groups, member.1, member.2, rfl, listed, rfl⟩
  · rintro ⟨groups, text, inner, rfl, listed, rfl⟩
    rw [hoistGroups, hoistGroupList_eq_map]
    exact List.mem_map.mpr ⟨_, listed, rfl⟩

section Parts

variable (distinct : keys.Distinct) {members : Entries Json}

include distinct

theorem mem_additional_iff {name : String} {value : Json} :
    (name, value) ∈ (hoistParts keys members).additional ↔
      ∃ raw, members.get? keys.additionalProperties = some raw ∧
        (name, value) ∈ hoistEntries keys raw := by
  rw [hoistParts_eq distinct]
  dsimp only
  cases members.get? keys.additionalProperties with
  | none => exact ⟨nofun, nofun⟩
  | some raw => simp

theorem mem_groups_iff {group : Entries Json} :
    group ∈ (hoistParts keys members).groups ↔
      ∃ raw, members.get? keys.patternProperties = some raw ∧ group ∈ hoistGroups keys raw := by
  rw [hoistParts_eq distinct]
  dsimp only
  cases members.get? keys.patternProperties with
  | none => exact ⟨nofun, nofun⟩
  | some raw => simp

/-- The entries of the two containers are those that hoisting splices. -/
theorem mem_containers_iff {name : String} {value : Json} :
    ((name, value) ∈ (hoistParts keys members).additional ∨
        ∃ group ∈ (hoistParts keys members).groups, (name, value) ∈ group) ↔
      ∃ part, Json.Splices keys (.obj members) name part ∧ value = hoist keys part := by
  simp only [mem_additional_iff distinct, mem_groups_iff distinct]
  constructor
  · rintro (⟨raw, found, present⟩ | ⟨group, ⟨raw, found, listed⟩, present⟩)
    · obtain ⟨entries, part, rfl, inside, rfl⟩ := mem_hoistEntries_iff.mp present
      exact ⟨part, .additional found inside, rfl⟩
    · obtain ⟨groups, text, inner, rfl, named, rfl⟩ := mem_hoistGroups_iff.mp listed
      obtain ⟨entries, part, rfl, inside, rfl⟩ := mem_hoistEntries_iff.mp present
      exact ⟨part, .patterned found named inside, rfl⟩
  · rintro ⟨part, splices, rfl⟩
    cases splices with
    | additional found inside =>
      exact .inl ⟨_, found, mem_hoistEntries_iff.mpr ⟨_, part, rfl, inside, rfl⟩⟩
    | patterned found named inside =>
      exact .inr ⟨_, ⟨_, found, mem_hoistGroups_iff.mpr ⟨_, _, _, rfl, named, rfl⟩⟩,
        mem_hoistEntries_iff.mpr ⟨_, part, rfl, inside, rfl⟩⟩

/-- The merged values are those that hoisting merges. -/
theorem mem_merged_iff {value : Json} :
    (∃ merged, (hoistParts keys members).merged = some merged ∧ value ∈ merged) ↔
      ∃ part, Json.Merges keys (.obj members) part ∧ value = hoist keys part := by
  rw [hoistParts_eq distinct]
  constructor
  · rintro ⟨merged, found, listed⟩
    obtain ⟨raw, stands, hoisted⟩ := Option.bind_eq_some_iff.mp found
    obtain ⟨slots, rfl, rfl⟩ := hoistContainer_eq_some hoisted
    obtain ⟨slot, present, rfl⟩ := List.mem_map.mp listed
    exact ⟨slot.2, .slot stands present, rfl⟩
  · rintro ⟨part, ⟨stands, present⟩, rfl⟩
    refine ⟨_, Option.bind_eq_some_iff.mpr ⟨_, stands, rfl⟩, ?_⟩
    rw [hoistValues_eq_map]
    exact List.mem_map.mpr ⟨_, present, rfl⟩

end Parts

/-! ## Names at the top -/

namespace HoistedParts

theorem membersOf_eq_nil {value : Json} (other : value.isObject = false) : membersOf value = [] := by
  cases value with
  | obj => cases other
  | _ => rfl

/-- The names of the object are those outside the `allOf` container and those of its members. -/
theorem mem_names_assemble {parts : HoistedParts} {name : String} :
    name ∈ Entries.names (membersOf parts.assemble) ↔
      name ∈ Entries.names parts.spliced ∨
        ∃ merged, parts.merged = some merged ∧
          ∃ member ∈ merged, name ∈ Entries.names (membersOf member) := by
  unfold assemble
  dsimp only
  split
  next none => simp [none, membersOf]
  next merged found =>
    simp only [found, Option.some.injEq, exists_eq_left']
    split
    next bare =>
      -- No member is an object, so the last one brings no names either.
      obtain ⟨empty, plain⟩ := Bool.and_eq_true_iff.mp bare
      have nothing : ∀ member ∈ merged, membersOf member = [] := fun member listed =>
        membersOf_eq_nil (by simpa using List.all_eq_true.mp plain member listed)
      have alone : membersOf (merged.getLast?.getD (.obj parts.spliced)) = [] := by
        cases last : merged.getLast? with
        | none => exact List.isEmpty_iff.mp empty
        | some member => exact nothing member (List.mem_of_getLast? last)
      rw [alone, List.isEmpty_iff.mp empty]
      constructor
      · exact fun absent => nomatch absent
      · rintro (absent | ⟨member, listed, present⟩)
        · cases absent
        · rw [nothing member listed] at present
          cases present
    next =>
      rw [← List.foldl_map, membersOf, Entries.mem_names_foldl_insertAll_iff]
      simp only [List.mem_map, exists_exists_and_eq_and]

end HoistedParts

theorem mem_names_ordinary {members : Entries Json} {name : String} :
    name ∈ Entries.names (hoistParts keys members).ordinary ↔
      name ∈ Entries.names members ∧ keys.contains name = false := by
  constructor
  · intro present
    obtain ⟨entry, listed, rfl⟩ := List.mem_map.mp present
    obtain ⟨member, source, plain, rfl⟩ := mem_ordinary.mp listed
    exact ⟨List.mem_map.mpr ⟨member, source, rfl⟩, plain⟩
  · rintro ⟨present, plain⟩
    obtain ⟨member, listed, rfl⟩ := List.mem_map.mp present
    exact Entries.mem_names_of_mem (mem_ordinary.mpr ⟨member, listed, plain, rfl⟩)

section Names

variable (distinct : keys.Distinct)

include distinct

theorem mem_names_containers {members : Entries Json} {name : String} :
    (name ∈ Entries.names (hoistParts keys members).additional ∨
        ∃ group ∈ (hoistParts keys members).groups, name ∈ Entries.names group) ↔
      ∃ part, Json.Splices keys (.obj members) name part := by
  constructor
  · rintro (present | ⟨group, listed, present⟩)
    · obtain ⟨⟨_, value⟩, inside, rfl⟩ := List.mem_map.mp present
      obtain ⟨part, splices, -⟩ := (mem_containers_iff distinct).mp (.inl inside)
      exact ⟨part, splices⟩
    · obtain ⟨⟨_, value⟩, inside, rfl⟩ := List.mem_map.mp present
      obtain ⟨part, splices, -⟩ := (mem_containers_iff distinct).mp (.inr ⟨group, listed, inside⟩)
      exact ⟨part, splices⟩
  · rintro ⟨part, splices⟩
    rcases (mem_containers_iff distinct).mpr ⟨part, splices, rfl⟩ with
      inside | ⟨group, listed, inside⟩
    · exact .inl (Entries.mem_names_of_mem inside)
    · exact .inr ⟨group, listed, Entries.mem_names_of_mem inside⟩

open HoistedParts in
theorem mem_names_merged {members : Entries Json} {name : String} :
    (∃ merged, (hoistParts keys members).merged = some merged ∧
        ∃ member ∈ merged, name ∈ Entries.names (membersOf member)) ↔
      ∃ part, Json.Merges keys (.obj members) part ∧
        name ∈ Entries.names (membersOf (hoist keys part)) := by
  constructor
  · rintro ⟨merged, found, member, listed, present⟩
    obtain ⟨part, merges, rfl⟩ := (mem_merged_iff distinct).mp ⟨merged, found, listed⟩
    exact ⟨part, merges, present⟩
  · rintro ⟨part, merges, present⟩
    obtain ⟨merged, found, listed⟩ := (mem_merged_iff distinct).mpr ⟨part, merges, rfl⟩
    exact ⟨merged, found, _, listed, present⟩

open HoistedParts in
/-- The names at the top of a hoisted value are the ordinary ones, those of spliced entries and
those that merged members have once they are hoisted. -/
theorem mem_names_hoist {value : Json} {name : String} :
    name ∈ Entries.names (membersOf (hoist keys value)) ↔
      (name ∈ Entries.names (membersOf value) ∧ keys.contains name = false) ∨
        (∃ part, Json.Splices keys value name part) ∨
        ∃ part, Json.Merges keys value part ∧
          name ∈ Entries.names (membersOf (hoist keys part)) := by
  cases value with
  | obj members =>
    rw [hoist, mem_names_assemble, spliced, Entries.mem_names_foldl_insertAll_iff,
      Entries.mem_names_insertAll, mem_names_ordinary, mem_names_merged distinct,
      ← mem_names_containers distinct, or_assoc, or_assoc, or_assoc]
    rfl
  | _ =>
    -- Other values have no names, before and after.
    constructor
    · exact fun absent => absurd absent List.not_mem_nil
    · rintro (⟨absent, -⟩ | ⟨_, absent⟩ | ⟨_, absent, -⟩) <;> cases absent

open HoistedParts in
/-- A synthetic key surfaces in the values that have one at the top once they are hoisted. -/
theorem surfaces_iff {value : Json} :
    value.Surfaces keys ↔
      ∃ name ∈ Entries.names (membersOf (hoist keys value)), keys.contains name = true := by
  constructor
  · intro surfaces
    induction surfaces with
    | @spliced value part name splices synthetic =>
      exact ⟨name, (mem_names_hoist distinct).mpr (.inr (.inl ⟨part, splices⟩)), synthetic⟩
    | @merged value part merges _ ih =>
      obtain ⟨name, present, synthetic⟩ := ih
      have among := (mem_names_hoist distinct).mpr (.inr (.inr ⟨part, merges, present⟩))
      exact ⟨name, among, synthetic⟩
  · rintro ⟨name, present, synthetic⟩
    induction size : nodes value using Nat.strong_induction_on generalizing value with
    | _ count ih =>
      subst size
      rcases (mem_names_hoist distinct).mp present with ⟨-, plain⟩ | ⟨part, splices⟩ |
        ⟨part, merges, inner⟩
      · rw [synthetic] at plain
        cases plain
      · exact .spliced splices synthetic
      · exact .merged merges (ih _ merges.nodes_lt inner rfl)

/-! ## One round and two -/

/-- One round leaves no synthetic key in a calm value. -/
theorem hoist_freeOf_of_calm {value : Json} (calm : value.Calm keys) :
    (hoist keys value).FreeOf keys := by
  induction size : nodes value using Nat.strong_induction_on generalizing value with
  | _ count ih =>
    subst size
    cases value with
    | null => exact .null
    | bool => exact .bool
    | int => exact .int
    | float => exact .float
    | str => exact .str
    | arr items =>
      refine hoist_arr_freeOf fun item present => ?_
      exact ih _ (nodes_lt_of_item present) (calm.visited (.item present)) rfl
    | obj members =>
      have containers : ∀ entry : String × Json,
          ((∃ part, Json.Splices keys (.obj members) entry.1 part ∧ entry.2 = hoist keys part) →
            keys.contains entry.1 = false ∧ entry.2.FreeOf keys) := by
        rintro ⟨name, _⟩ ⟨part, splices, rfl⟩
        refine ⟨?_, ih _ splices.nodes_lt (calm.visited (.spliced splices)) rfl⟩
        rw [← Bool.not_eq_true]
        exact fun synthetic => calm _ .refl (.spliced splices synthetic)
      rw [hoist]
      refine HoistedParts.freeOf_assemble (fun entry present => ?_) (fun entry present => ?_)
        (fun group listed entry present => ?_) fun merged found value listed => ?_
      · obtain ⟨member, listed, plain, rfl⟩ := mem_ordinary.mp present
        have visits := Json.Visits.ordinary listed plain
        exact ⟨plain, ih _ (nodes_lt_of_member listed) (calm.visited visits) rfl⟩
      · exact containers entry ((mem_containers_iff distinct).mp (.inl present))
      · exact containers entry ((mem_containers_iff distinct).mp (.inr ⟨group, listed, present⟩))
      · obtain ⟨part, merges, rfl⟩ := (mem_merged_iff distinct).mp ⟨merged, found, listed⟩
        exact ih _ merges.nodes_lt (calm.visited (.merged merges)) rfl

/-- A second round changes nothing in a calm value, and something where a synthetic key surfaces at
the top. -/
theorem hoist_twice (value : Json) :
    (value.Calm keys → hoist keys (hoist keys value) = hoist keys value) ∧
      (value.Surfaces keys → hoist keys (hoist keys value) ≠ hoist keys value) := by
  refine ⟨fun calm => hoist_of_freeOf (hoist_freeOf_of_calm distinct calm), fun surfaces same => ?_⟩
  obtain ⟨name, present, synthetic⟩ := (surfaces_iff distinct).mp surfaces
  have free : (hoist keys value).FreeOf keys := freeOf_of_nodes_le (by rw [same])
  obtain ⟨member, listed, rfl⟩ := List.mem_map.mp present
  rw [(HoistedParts.freeOf_membersOf free member listed).1] at synthetic
  cases synthetic

end Names

/-- An additional entry that is a container of additional entries itself. -/
def nestedContainers : Json :=
  .obj [(({} : SyntheticKeys).additionalProperties,
    .obj [(({} : SyntheticKeys).additionalProperties, .obj [("a", .int 1)])])]

/-- The inner container comes to the top in one round and is spliced in another one. -/
theorem nested_containers_hoist_twice :
    ({} : SyntheticKeys).Distinct ∧
      hoist {} nestedContainers =
        .obj [(({} : SyntheticKeys).additionalProperties, .obj [("a", .int 1)])] ∧
      hoist {} (hoist {} nestedContainers) = .obj [("a", .int 1)] ∧
      hoist {} (hoist {} nestedContainers) ≠ hoist {} nestedContainers := by
  refine ⟨⟨by decide, by decide, by decide⟩, rfl, rfl, fun same => ?_⟩
  have members := Json.obj.inj (show Json.obj [("a", .int 1)] =
    .obj [(({} : SyntheticKeys).additionalProperties, .obj [("a", .int 1)])] from same)
  exact absurd (congrArg Entries.names members) (by decide)

/-- An additional entry beside an ordinary member. -/
def plainContainer : Json :=
  .obj [(({} : SyntheticKeys).additionalProperties, .obj [("b", .null)]), ("c", .null)]

theorem plain_container_hoist_twice :
    ({} : SyntheticKeys).Distinct ∧ plainContainer.Calm {} ∧
      hoist {} (hoist {} plainContainer) = hoist {} plainContainer ∧
      nestedContainers.Surfaces {} ∧
      hoist {} (hoist {} nestedContainers) ≠ hoist {} nestedContainers := by
  have distinct : ({} : SyntheticKeys).Distinct := ⟨by decide, by decide, by decide⟩
  have scalar : Json.null.Calm {} := Json.FreeOf.null.calm
  have splices : ∀ name part, plainContainer.Splices {} name part → name = "b" ∧ part = .null := by
    unfold plainContainer
    rintro name part (⟨found, present⟩ | ⟨absent, -, -⟩)
    · cases Option.some.inj (show some (Json.obj [("b", .null)]) = _ from found)
      cases List.mem_singleton.mp present
      exact ⟨rfl, rfl⟩
    · cases show (none : Option Json) = _ from absent
  have merges : ∀ part, ¬ plainContainer.Merges {} part := by
    unfold plainContainer
    rintro part ⟨absent, -⟩
    cases show (none : Option Json) = _ from absent
  have calm : plainContainer.Calm {} := by
    refine .intro (fun surfaces => ?_) fun part visits => ?_
    · rcases surfaces with ⟨spliced, synthetic⟩ | ⟨merged, -⟩
      · rw [(splices _ _ spliced).1] at synthetic
        exact absurd synthetic (by decide)
      · exact merges _ merged
    · suffices part = .null from this ▸ scalar
      unfold plainContainer at visits splices merges
      rcases visits with - | ⟨present, plain⟩ | spliced | merged
      · rcases List.mem_cons.mp present with same | later
        · obtain ⟨rfl, -⟩ := Prod.mk.inj same
          exact absurd plain (by decide)
        · cases List.mem_singleton.mp later
          rfl
      · exact (splices _ _ spliced).2
      · exact absurd merged (merges _)
  have surfaces : nestedContainers.Surfaces {} :=
    .spliced (.additional rfl List.mem_cons_self) (by decide)
  exact ⟨distinct, calm, (hoist_twice distinct plainContainer).1 calm, surfaces,
    (hoist_twice distinct nestedContainers).2 surfaces⟩

end SchemaSampler
