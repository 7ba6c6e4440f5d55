import SchemaSampler.Proofs.Hoist.Parts

/-!
# Raw objects under other keys

Two raw objects may hold the same under different synthetic keys, and then they hoist to the same
value. Raw objects are made member by member; a member goes to one part of the hoisted object, and
objects stay alike if what goes to a part hoists alike.

Results:
1. `hoistParts_eq`: every part by the key that it stands under.
2. `Rekeyed.insert_ordinary`, `insert_additional`, `insert_patterns`, `insert_merged`: one more
   member on both sides.
3. `Rekeyed.hoist_eq`: alike objects hoist to the same value.
-/

namespace SchemaSampler

variable {keys twinKeys : SyntheticKeys}

/-! ## Parts by keys -/

theorem hoistParts_eq (distinct : keys.Distinct) (members : Entries Json) :
    hoistParts keys members = {
      ordinary := (members.filter fun member => !keys.contains member.1).map fun member =>
        (member.1, hoist keys member.2)
      additional := ((members.get? keys.additionalProperties).map (hoistEntries keys)).getD []
      groups := ((members.get? keys.patternProperties).map (hoistGroups keys)).getD []
      merged := (members.get? keys.allOf).bind (hoistContainer keys) } := by
  obtain ⟨additionalPattern, additionalMerged, patternMerged⟩ := distinct
  induction members with
  | nil => rfl
  | cons member rest ih =>
    obtain ⟨key, value⟩ := member
    rw [Entries.get?_cons, Entries.get?_cons, Entries.get?_cons]
    rcases hoistParts_cons keys key value rest with ⟨rfl, parts⟩ | ⟨rfl, parts⟩ | ⟨rfl, parts⟩ |
      ⟨ordinary, parts⟩
    · rw [parts, ih, List.filter_cons_of_neg (by simp), if_pos rfl, if_neg additionalPattern.symm,
        if_neg additionalMerged.symm]
      rfl
    · rw [parts, ih, List.filter_cons_of_neg (by simp), if_pos rfl, if_neg additionalPattern,
        if_neg patternMerged.symm]
      rfl
    · rw [parts, ih, List.filter_cons_of_neg (by simp), if_pos rfl, if_neg additionalMerged,
        if_neg patternMerged]
      rfl
    · obtain ⟨notAdditional, notPattern, notMerged⟩ := SyntheticKeys.contains_eq_false.mp ordinary
      rw [parts, ih, List.filter_cons_of_pos (by simp [ordinary]), if_neg notAdditional.symm,
        if_neg notPattern.symm, if_neg notMerged.symm, List.map_cons]

/-! ## One more member -/

section Insertion

variable {members : Entries Json} (sorted : members.Sorted) {name : String} {value : Json}

include sorted

/-- The members outside the containers, when one more is inserted. -/
theorem filter_ordinary_insert :
    ((Entries.insert name value members).filter fun member => !keys.contains member.1).map
        (fun member => (member.1, hoist keys member.2)) =
      if keys.contains name then
        (members.filter fun member => !keys.contains member.1).map
          fun member => (member.1, hoist keys member.2)
      else Entries.insert name (hoist keys value)
        ((members.filter fun member => !keys.contains member.1).map
          fun member => (member.1, hoist keys member.2)) := by
  rw [sorted.filter_insert name value fun name => !keys.contains name]
  cases keys.contains name with
  | true => rfl
  | false => exact Entries.map_insert name value _ (hoist keys)

variable (distinct : keys.Distinct)

include distinct

theorem hoistParts_insert_ordinary (ordinary : keys.contains name = false) :
    hoistParts keys (Entries.insert name value members) = { hoistParts keys members with
      ordinary := Entries.insert name (hoist keys value) (hoistParts keys members).ordinary } := by
  obtain ⟨notAdditional, notPattern, notMerged⟩ := SyntheticKeys.contains_eq_false.mp ordinary
  rw [hoistParts_eq distinct, hoistParts_eq distinct members, filter_ordinary_insert sorted,
    ordinary, Entries.get?_insert, Entries.get?_insert, Entries.get?_insert,
    if_neg notAdditional.symm, if_neg notPattern.symm, if_neg notMerged.symm]
  rfl

theorem hoistParts_insert_additional :
    hoistParts keys (Entries.insert keys.additionalProperties value members) =
      { hoistParts keys members with additional := hoistEntries keys value } := by
  rw [hoistParts_eq distinct, hoistParts_eq distinct members, filter_ordinary_insert sorted,
    Entries.get?_insert, Entries.get?_insert, Entries.get?_insert, if_pos rfl,
    if_neg distinct.1.symm, if_neg distinct.2.1.symm, SyntheticKeys.contains_additionalProperties]
  rfl

theorem hoistParts_insert_patterns :
    hoistParts keys (Entries.insert keys.patternProperties value members) =
      { hoistParts keys members with groups := hoistGroups keys value } := by
  rw [hoistParts_eq distinct, hoistParts_eq distinct members, filter_ordinary_insert sorted,
    Entries.get?_insert, Entries.get?_insert, Entries.get?_insert, if_neg distinct.1, if_pos rfl,
    if_neg distinct.2.2.symm, SyntheticKeys.contains_patternProperties]
  rfl

theorem hoistParts_insert_merged :
    hoistParts keys (Entries.insert keys.allOf value members) =
      { hoistParts keys members with merged := hoistContainer keys value } := by
  rw [hoistParts_eq distinct, hoistParts_eq distinct members, filter_ordinary_insert sorted,
    Entries.get?_insert, Entries.get?_insert, Entries.get?_insert, if_neg distinct.2.1,
    if_neg distinct.2.2, if_pos rfl, SyntheticKeys.contains_allOf]
  rfl

end Insertion

/-! ## Alike objects -/

/-- Sorted objects that hoist to the same parts under two triples of keys. -/
structure Rekeyed (keys twinKeys : SyntheticKeys) (members others : Entries Json) : Prop where
  sorted : members.Sorted
  sortedTwin : others.Sorted
  parts : hoistParts keys members = hoistParts twinKeys others

namespace Rekeyed

variable {members others : Entries Json} {value other : Json}

theorem nil : Rekeyed keys twinKeys [] [] := ⟨.nil, .nil, rfl⟩

theorem hoist_eq (alike : Rekeyed keys twinKeys members others) :
    hoist keys (.obj members) = hoist twinKeys (.obj others) := by
  rw [hoist, hoist, alike.parts]

variable (alike : Rekeyed keys twinKeys members others) (distinct : keys.Distinct)
  (distinctTwin : twinKeys.Distinct)

include alike distinct distinctTwin

theorem insert_ordinary {name : String} (ordinary : keys.contains name = false)
    (ordinaryTwin : twinKeys.contains name = false) (same : hoist keys value = hoist twinKeys other) :
    Rekeyed keys twinKeys (Entries.insert name value members) (Entries.insert name other others) where
  sorted := alike.sorted.insert _ _
  sortedTwin := alike.sortedTwin.insert _ _
  parts := by
    rw [hoistParts_insert_ordinary alike.sorted distinct ordinary,
      hoistParts_insert_ordinary alike.sortedTwin distinctTwin ordinaryTwin, alike.parts, same]

theorem insert_additional (same : hoistEntries keys value = hoistEntries twinKeys other) :
    Rekeyed keys twinKeys (Entries.insert keys.additionalProperties value members)
      (Entries.insert twinKeys.additionalProperties other others) where
  sorted := alike.sorted.insert _ _
  sortedTwin := alike.sortedTwin.insert _ _
  parts := by
    rw [hoistParts_insert_additional alike.sorted distinct,
      hoistParts_insert_additional alike.sortedTwin distinctTwin, alike.parts, same]

theorem insert_patterns (same : hoistGroups keys value = hoistGroups twinKeys other) :
    Rekeyed keys twinKeys (Entries.insert keys.patternProperties value members)
      (Entries.insert twinKeys.patternProperties other others) where
  sorted := alike.sorted.insert _ _
  sortedTwin := alike.sortedTwin.insert _ _
  parts := by
    rw [hoistParts_insert_patterns alike.sorted distinct,
      hoistParts_insert_patterns alike.sortedTwin distinctTwin, alike.parts, same]

theorem insert_merged (same : hoistContainer keys value = hoistContainer twinKeys other) :
    Rekeyed keys twinKeys (Entries.insert keys.allOf value members)
      (Entries.insert twinKeys.allOf other others) where
  sorted := alike.sorted.insert _ _
  sortedTwin := alike.sortedTwin.insert _ _
  parts := by
    rw [hoistParts_insert_merged alike.sorted distinct,
      hoistParts_insert_merged alike.sortedTwin distinctTwin, alike.parts, same]

end Rekeyed

/-! ## Containers -/

/-- Entries of the same names whose values have the same images. -/
def SameImages {α : Type} (image twinImage : Json → α) (members others : Entries Json) : Prop :=
  (members.map fun member => (member.1, image member.2)) =
    others.map fun member => (member.1, twinImage member.2)

namespace SameImages

variable {α : Type} {image twinImage : Json → α} {members others : Entries Json} {value other : Json}

theorem nil : SameImages image twinImage [] [] := rfl

theorem insert (same : SameImages image twinImage members others)
    (images : image value = twinImage other) (name : String) :
    SameImages image twinImage (Entries.insert name value members)
      (Entries.insert name other others) := by
  unfold SameImages at same ⊢
  rw [Entries.map_insert, Entries.map_insert, same, images]

theorem hoistEntries_eq (same : SameImages (hoist keys) (hoist twinKeys) members others) :
    hoistEntries keys (.obj members) = hoistEntries twinKeys (.obj others) := by
  rw [hoistEntries, hoistEntries, hoistMembers_eq_map, hoistMembers_eq_map]
  exact same

theorem hoistContainer_eq (same : SameImages (hoist keys) (hoist twinKeys) members others) :
    hoistContainer keys (.obj members) = hoistContainer twinKeys (.obj others) := by
  have values := congrArg (List.map Prod.snd) same
  rw [List.map_map, List.map_map] at values
  rw [hoistContainer, hoistContainer, hoistValues_eq_map, hoistValues_eq_map]
  exact congrArg some values

theorem hoistGroups_eq (same : SameImages (hoistEntries keys) (hoistEntries twinKeys) members others) :
    hoistGroups keys (.obj members) = hoistGroups twinKeys (.obj others) := by
  have values := congrArg (List.map Prod.snd) same
  rw [List.map_map, List.map_map] at values
  rw [hoistGroups, hoistGroups, hoistGroupList_eq_map, hoistGroupList_eq_map]
  exact values

end SameImages

end SchemaSampler
