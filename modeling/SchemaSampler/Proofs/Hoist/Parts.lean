import SchemaSampler.Hoist
import SchemaSampler.Proofs.Entries

/-!
# The parts of a hoisted object

Hoisting takes an object apart by its synthetic keys. The lemmas say where every part comes from
and that the object made of them adds nothing. A value without synthetic keys has ordinary parts
only, so hoisting leaves it alone.

Results:
1. `Json.FreeOf`: no object in a value has a synthetic key.
2. `hoist_of_freeOf`: hoisting changes no such value.
3. `mem_ordinary`, `of_mem_additional`, `of_mem_groups`, `of_merged`: the parts of an object.
4. `HoistedParts.freeOf_assemble`: parts without synthetic keys make a value without them.
-/

namespace SchemaSampler

/-- No object in the value, at any depth, has a synthetic key. -/
inductive Json.FreeOf (keys : SyntheticKeys) : Json → Prop
  | null : FreeOf keys .null
  | bool {value : Bool} : FreeOf keys (.bool value)
  | int {value : Int} : FreeOf keys (.int value)
  | float {value : Binary64} : FreeOf keys (.float value)
  | str {value : String} : FreeOf keys (.str value)
  | arr {items : List Json} : (∀ item ∈ items, FreeOf keys item) → FreeOf keys (.arr items)
  | obj {members : List (String × Json)} :
      (∀ member ∈ members, keys.contains member.1 = false) →
      (∀ member ∈ members, FreeOf keys member.2) → FreeOf keys (.obj members)

variable {keys : SyntheticKeys}

namespace SyntheticKeys

theorem contains_eq_false {name : String} :
    keys.contains name = false ↔ name ≠ keys.additionalProperties ∧
      name ≠ keys.patternProperties ∧ name ≠ keys.allOf := by
  simp [contains, and_assoc]

@[simp] theorem contains_additionalProperties :
    keys.contains keys.additionalProperties = true := by
  simp [contains]

@[simp] theorem contains_patternProperties : keys.contains keys.patternProperties = true := by
  simp [contains]

@[simp] theorem contains_allOf : keys.contains keys.allOf = true := by
  simp [contains]

end SyntheticKeys

/-! ## Lists of hoisted values -/

theorem hoistItems_eq_map (items : List Json) : hoistItems keys items = items.map (hoist keys) := by
  induction items with
  | nil => rfl
  | cons item rest ih => rw [hoistItems, ih, List.map_cons]

theorem hoistMembers_eq_map (members : List (String × Json)) :
    hoistMembers keys members = members.map fun member => (member.1, hoist keys member.2) := by
  induction members with
  | nil => rfl
  | cons member rest ih => rw [hoistMembers, ih, List.map_cons]

theorem hoistValues_eq_map (members : List (String × Json)) :
    hoistValues keys members = members.map fun member => hoist keys member.2 := by
  induction members with
  | nil => rfl
  | cons member rest ih => rw [hoistValues, ih, List.map_cons]

theorem hoistGroupList_eq_map (groups : List (String × Json)) :
    hoistGroupList keys groups = groups.map fun group => hoistEntries keys group.2 := by
  induction groups with
  | nil => rfl
  | cons group rest ih => rw [hoistGroupList, ih, List.map_cons]

/-! ## Where parts come from -/

/-- A member goes to the part that its key names. -/
theorem hoistParts_cons (keys : SyntheticKeys) (key : String) (value : Json)
    (rest : List (String × Json)) :
    (key = keys.additionalProperties ∧ hoistParts keys ((key, value) :: rest) =
      { hoistParts keys rest with additional := hoistEntries keys value }) ∨
    (key = keys.patternProperties ∧ hoistParts keys ((key, value) :: rest) =
      { hoistParts keys rest with groups := hoistGroups keys value }) ∨
    (key = keys.allOf ∧ hoistParts keys ((key, value) :: rest) =
      { hoistParts keys rest with merged := hoistContainer keys value }) ∨
    (keys.contains key = false ∧ hoistParts keys ((key, value) :: rest) =
      { hoistParts keys rest with
        ordinary := (key, hoist keys value) :: (hoistParts keys rest).ordinary }) := by
  rw [hoistParts]
  split
  next same => exact .inl ⟨same, rfl⟩
  next notAdditional =>
    split
    next same => exact .inr (.inl ⟨same, rfl⟩)
    next notPattern =>
      split
      next same => exact .inr (.inr (.inl ⟨same, rfl⟩))
      next notMerged =>
        have ordinary := SyntheticKeys.contains_eq_false.mpr ⟨notAdditional, notPattern, notMerged⟩
        exact .inr (.inr (.inr ⟨ordinary, rfl⟩))

theorem ordinary_eq (members : List (String × Json)) :
    (hoistParts keys members).ordinary =
      (members.filter fun member => !keys.contains member.1).map fun member =>
        (member.1, hoist keys member.2) := by
  induction members with
  | nil => rfl
  | cons member rest ih =>
    obtain ⟨key, value⟩ := member
    rcases hoistParts_cons keys key value rest with ⟨here, parts⟩ | ⟨here, parts⟩ |
      ⟨here, parts⟩ | ⟨here, parts⟩
    · rw [parts, List.filter_cons_of_neg (by simp [here]), ← ih]
    · rw [parts, List.filter_cons_of_neg (by simp [here]), ← ih]
    · rw [parts, List.filter_cons_of_neg (by simp [here]), ← ih]
    · rw [parts, List.filter_cons_of_pos (by simp [here]), ih, List.map_cons]

theorem mem_ordinary {members : List (String × Json)} {entry : String × Json} :
    entry ∈ (hoistParts keys members).ordinary ↔
      ∃ member ∈ members, keys.contains member.1 = false ∧
        (member.1, hoist keys member.2) = entry := by
  rw [ordinary_eq, List.mem_map]
  simp only [List.mem_filter, Bool.not_eq_true', and_assoc]

theorem of_mem_additional {members : List (String × Json)} {entry : String × Json}
    (present : entry ∈ (hoistParts keys members).additional) :
    ∃ raw, (keys.additionalProperties, raw) ∈ members ∧ entry ∈ hoistEntries keys raw := by
  induction members with
  | nil => cases present
  | cons member rest ih =>
    obtain ⟨key, value⟩ := member
    rcases hoistParts_cons keys key value rest with ⟨here, parts⟩ | ⟨-, parts⟩ | ⟨-, parts⟩ |
      ⟨-, parts⟩
    · rw [parts] at present
      exact ⟨value, here ▸ List.mem_cons_self, present⟩
    all_goals
      rw [parts] at present
      obtain ⟨raw, listed, hoisted⟩ := ih present
      exact ⟨raw, List.mem_cons_of_mem _ listed, hoisted⟩

theorem of_mem_groups {members : List (String × Json)} {group : Entries Json}
    (present : group ∈ (hoistParts keys members).groups) :
    ∃ raw, (keys.patternProperties, raw) ∈ members ∧ group ∈ hoistGroups keys raw := by
  induction members with
  | nil => cases present
  | cons member rest ih =>
    obtain ⟨key, value⟩ := member
    rcases hoistParts_cons keys key value rest with ⟨-, parts⟩ | ⟨here, parts⟩ | ⟨-, parts⟩ |
      ⟨-, parts⟩
    case inr.inl =>
      rw [parts] at present
      exact ⟨value, here ▸ List.mem_cons_self, present⟩
    all_goals
      rw [parts] at present
      obtain ⟨raw, listed, hoisted⟩ := ih present
      exact ⟨raw, List.mem_cons_of_mem _ listed, hoisted⟩

theorem of_merged {members : List (String × Json)} {merged : List Json}
    (found : (hoistParts keys members).merged = some merged) :
    ∃ raw, (keys.allOf, raw) ∈ members ∧ hoistContainer keys raw = some merged := by
  induction members with
  | nil => cases found
  | cons member rest ih =>
    obtain ⟨key, value⟩ := member
    rcases hoistParts_cons keys key value rest with ⟨-, parts⟩ | ⟨-, parts⟩ | ⟨here, parts⟩ |
      ⟨-, parts⟩
    case inr.inr.inl =>
      rw [parts] at found
      exact ⟨value, here ▸ List.mem_cons_self, found⟩
    all_goals
      rw [parts] at found
      obtain ⟨raw, listed, hoisted⟩ := ih found
      exact ⟨raw, List.mem_cons_of_mem _ listed, hoisted⟩

theorem mem_hoistEntries {raw : Json} {entry : String × Json}
    (present : entry ∈ hoistEntries keys raw) :
    ∃ members member, raw = .obj members ∧ member ∈ members ∧
      (member.1, hoist keys member.2) = entry := by
  unfold hoistEntries at present
  split at present
  next members =>
    rw [hoistMembers_eq_map, List.mem_map] at present
    obtain ⟨member, listed, same⟩ := present
    exact ⟨members, member, rfl, listed, same⟩
  next => cases present

theorem mem_hoistGroups {raw : Json} {group : Entries Json} (present : group ∈ hoistGroups keys raw) :
    ∃ groups member, raw = .obj groups ∧ member ∈ groups ∧ hoistEntries keys member.2 = group := by
  unfold hoistGroups at present
  split at present
  next groups =>
    rw [hoistGroupList_eq_map, List.mem_map] at present
    obtain ⟨member, listed, same⟩ := present
    exact ⟨groups, member, rfl, listed, same⟩
  next => cases present

theorem hoistContainer_eq_some {raw : Json} {merged : List Json}
    (found : hoistContainer keys raw = some merged) :
    ∃ members, raw = .obj members ∧ merged = members.map fun member => hoist keys member.2 := by
  unfold hoistContainer at found
  split at found
  next members =>
    rw [hoistValues_eq_map] at found
    exact ⟨members, rfl, (Option.some.inj found).symm⟩
  next => cases found

/-! ## Values without synthetic keys -/

theorem hoistParts_of_ordinary {members : List (String × Json)}
    (ordinary : ∀ member ∈ members, keys.contains member.1 = false) :
    hoistParts keys members =
      { ordinary := members.map fun member => (member.1, hoist keys member.2) } := by
  induction members with
  | nil => rfl
  | cons member rest ih =>
    obtain ⟨key, value⟩ := member
    obtain ⟨notAdditional, notPattern, notMerged⟩ :=
      SyntheticKeys.contains_eq_false.mp (ordinary (key, value) List.mem_cons_self)
    rw [hoistParts, ih fun other later => ordinary other (List.mem_cons_of_mem _ later)]
    simp only [if_neg notAdditional, if_neg notPattern, if_neg notMerged, List.map_cons]

/-- Hoisting has nothing to splice in a value without synthetic keys. -/
theorem hoist_of_freeOf {value : Json} (free : value.FreeOf keys) : hoist keys value = value := by
  induction free with
  | null | bool | int | float | str => rfl
  | arr _ ih =>
    rw [hoist, hoistItems_eq_map, List.map_congr_left ih, List.map_id']
  | @obj members ordinary _ ih =>
    have kept : (members.map fun member => (member.1, hoist keys member.2)) = members := by
      rw [List.map_congr_left fun member present => congrArg (Prod.mk member.1) (ih member present),
        List.map_id']
    rw [hoist, hoistParts_of_ordinary ordinary, kept]
    rfl

/-! ## Parts without synthetic keys -/

/-- The names are not synthetic, and the values have no synthetic keys. -/
def Entries.FreeOf (keys : SyntheticKeys) (entries : Entries Json) : Prop :=
  ∀ entry ∈ entries, keys.contains entry.1 = false ∧ entry.2.FreeOf keys

theorem Entries.FreeOf.value {entries : Entries Json} (free : entries.FreeOf keys) :
    (Json.obj entries).FreeOf keys :=
  .obj (fun member present => (free member present).1) fun member present => (free member present).2

theorem Entries.FreeOf.insertAll {entries additions : Entries Json} (free : entries.FreeOf keys)
    (others : additions.FreeOf keys) : (entries.insertAll additions).FreeOf keys := by
  intro entry present
  cases Entries.mem_of_mem_insertAll present with
  | inl old => exact free entry old
  | inr new => exact others entry new

theorem Entries.FreeOf.foldl {entries : Entries Json} (free : entries.FreeOf keys)
    {groups : List (Entries Json)} (each : ∀ group ∈ groups, group.FreeOf keys) :
    (groups.foldl Entries.insertAll entries).FreeOf keys := by
  induction groups generalizing entries with
  | nil => exact free
  | cons group rest ih =>
    exact ih (free.insertAll (each group List.mem_cons_self)) fun other later =>
      each other (List.mem_cons_of_mem _ later)

namespace HoistedParts

theorem freeOf_membersOf {value : Json} (free : value.FreeOf keys) :
    (membersOf value).FreeOf keys := by
  cases free with
  | obj names values => exact fun member present => ⟨names member present, values member present⟩
  | _ => exact fun _ absent => nomatch absent

/-- Parts without synthetic keys make a value without them, whichever of its forms it takes. -/
theorem freeOf_assemble {parts : HoistedParts} (ordinary : parts.ordinary.FreeOf keys)
    (additional : parts.additional.FreeOf keys) (groups : ∀ group ∈ parts.groups, group.FreeOf keys)
    (merged : ∀ members, parts.merged = some members → ∀ member ∈ members, member.FreeOf keys) :
    parts.assemble.FreeOf keys := by
  have spliced : parts.spliced.FreeOf keys := (ordinary.insertAll additional).foldl groups
  unfold assemble
  dsimp only
  split
  next => exact spliced.value
  next members found =>
    have each := merged members found
    -- A container without objects gives its last member, any other one is merged.
    split
    · cases last : members.getLast? with
      | none => exact spliced.value
      | some member => exact each member (List.mem_of_getLast? last)
    · rw [← List.foldl_map]
      refine (spliced.foldl fun group present => ?_).value
      obtain ⟨member, listed, rfl⟩ := List.mem_map.mp present
      exact freeOf_membersOf (each member listed)

end HoistedParts

/-- What stands under a key hoists without synthetic keys, in the form that the key asks for. -/
structure MemberHoistsFree (keys : SyntheticKeys) (member : String × Json) : Prop where
  ordinary : keys.contains member.1 = false → (hoist keys member.2).FreeOf keys
  additional : member.1 = keys.additionalProperties → (hoistEntries keys member.2).FreeOf keys
  patterns : member.1 = keys.patternProperties →
    ∀ group ∈ hoistGroups keys member.2, group.FreeOf keys
  merged : member.1 = keys.allOf → ∀ members, hoistContainer keys member.2 = some members →
    ∀ inner ∈ members, inner.FreeOf keys

theorem hoist_obj_freeOf {members : List (String × Json)}
    (each : ∀ member ∈ members, MemberHoistsFree keys member) :
    (hoist keys (.obj members)).FreeOf keys := by
  rw [hoist]
  refine HoistedParts.freeOf_assemble ?_ ?_ ?_ ?_
  · intro entry present
    obtain ⟨member, listed, plain, rfl⟩ := mem_ordinary.mp present
    exact ⟨plain, (each member listed).ordinary plain⟩
  · intro entry present
    obtain ⟨raw, listed, hoisted⟩ := of_mem_additional present
    exact (each _ listed).additional rfl entry hoisted
  · intro group present
    obtain ⟨raw, listed, hoisted⟩ := of_mem_groups present
    exact (each _ listed).patterns rfl group hoisted
  · intro members found
    obtain ⟨raw, listed, hoisted⟩ := of_merged found
    exact (each _ listed).merged rfl members hoisted

theorem hoist_arr_freeOf {items : List Json} (each : ∀ item ∈ items, (hoist keys item).FreeOf keys) :
    (hoist keys (.arr items)).FreeOf keys := by
  rw [hoist, hoistItems_eq_map]
  refine .arr fun item present => ?_
  obtain ⟨raw, listed, rfl⟩ := List.mem_map.mp present
  exact each raw listed

end SchemaSampler
