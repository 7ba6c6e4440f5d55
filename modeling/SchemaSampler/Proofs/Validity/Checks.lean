import SchemaSampler.Proofs.Entries
import SchemaSampler.Validity.Check

/-!
# What checks ask for

A check finds no failure exactly when the instance has what its keyword asks for. The lemmas say
this for the keywords one by one; `view_obj_eq_nil` puts them together for a schema object.

Results:
1. `items_eq_nil`, `requiredFailures_eq_nil`, `propertiesCheck_eq_nil` and the other keywords.
2. `view_obj_eq_nil`: an object without a reference asks for what all its keywords ask for.
3. `sameValue_refl`, `isConstant_refl`: a value equals itself.
-/

namespace SchemaSampler

/-! ## Depths of parts -/

namespace Json

theorem depth_le_itemsDepth {items : List Json} {item : Json} (present : item ∈ items) :
    item.depth ≤ itemsDepth items := by
  induction items with
  | nil => cases present
  | cons first rest ih =>
    rw [itemsDepth]
    rcases List.mem_cons.mp present with rfl | later
    · exact Nat.le_max_left _ _
    · exact (ih later).trans (Nat.le_max_right _ _)

theorem depth_le_membersDepth {members : List (String × Json)} {name : String} {value : Json}
    (present : (name, value) ∈ members) : value.depth ≤ membersDepth members := by
  induction members with
  | nil => cases present
  | cons first rest ih =>
    rw [membersDepth]
    rcases List.mem_cons.mp present with rfl | later
    · exact Nat.le_max_left _ _
    · exact (ih later).trans (Nat.le_max_right _ _)

theorem depth_lt_of_item {items : List Json} {item : Json} (present : item ∈ items) :
    item.depth < (arr items).depth :=
  Nat.lt_succ_of_le (depth_le_itemsDepth present)

theorem depth_lt_of_member {members : List (String × Json)} {name : String} {value : Json}
    (present : (name, value) ∈ members) : value.depth < (obj members).depth :=
  Nat.lt_succ_of_le (depth_le_membersDepth present)

end Json

/-! ## Checks of items and members -/

theorem Check.require_eq_nil {condition : Bool} {part : Json} {cause : Cause} :
    Check.require condition part cause = [] ↔ condition = true := by
  unfold Check.require
  split
  next holds => exact ⟨fun _ => holds, fun _ => rfl⟩
  next fails => exact ⟨nofun, fun holds => absurd holds fails⟩

theorem Check.member_eq_nil {check : Check} {name : String} {value : Json} :
    check.member name value = [] ↔ check value = [] := by
  simp [Check.member]

theorem Check.items_eq_nil {checkAt : Nat → Check} {start : Nat} {items : List Json} :
    Check.items checkAt start items = [] ↔
      ∀ place item, items[place]? = some item → checkAt (start + place) item = [] := by
  induction items generalizing start with
  | nil => simp [Check.items]
  | cons item rest ih =>
    rw [Check.items, List.append_eq_nil_iff, List.map_eq_nil_iff, ih]
    constructor
    · rintro ⟨first, later⟩ place other found
      cases place with
      | zero =>
        cases found
        exact first
      | succ place =>
        have there := later place other found
        rwa [Nat.add_assoc, Nat.add_comm 1 place] at there
    · intro each
      refine ⟨each 0 item rfl, fun place other found => ?_⟩
      have there := each (place + 1) other found
      rwa [Nat.add_assoc, Nat.add_comm 1 place]

namespace Schema

variable {check : String → Check} {part : Json}

/-! ## Schema objects -/

theorem memberViews_eq_map (members : List (String × Json)) :
    memberViews check members = members.map fun member => (member.1, view check member.2) := by
  induction members with
  | nil => rfl
  | cons member rest ih => rw [memberViews, ih, List.map_cons]

theorem itemViews_eq_map (items : List Json) :
    itemViews check items = items.map fun item => (view check item).schema := by
  induction items with
  | nil => rfl
  | cons item rest ih => rw [itemViews, ih, List.map_cons]

/-- The keywords of an object without a reference are checked one by one. -/
theorem view_obj_eq_nil {members : List (String × Json)}
    (distinct : (Entries.names members).Nodup) (plain : "$ref" ∉ Entries.names members) :
    (view check (.obj members)).schema part = [] ↔
      ∀ member ∈ members, keywordCheck members (memberViews check members) member.1 member.2
        (view check member.2) part = [] := by
  show objectCheck check members (memberViews check members) part = [] ↔ _
  unfold objectCheck
  rw [Entries.get?_eq_none_iff.mpr plain]
  dsimp only
  rw [List.flatMap_eq_nil_iff]
  refine forall₂_congr fun member present => ?_
  have found : Entries.get? (memberViews check members) member.1 = some (view check member.2) := by
    rw [memberViews_eq_map, Entries.get?_map, Entries.get?_eq_some_of_mem distinct present]
    rfl
  rw [found]

theorem view_reference {members : List (String × Json)} {pointer : String}
    (found : Entries.get? members "$ref" = some (.str pointer)) :
    (view check (.obj members)).schema part = check pointer part := by
  show objectCheck check members (memberViews check members) part = _
  unfold objectCheck
  rw [found]

/-! ## Keywords -/

theorem typeCheck_eq_nil {type : TypeName} :
    typeCheck (.str type.name) part = [] ↔ type.admits part = true := by
  have single : typesOf (.str type.name) = [type] := by
    cases type <;> rfl
  unfold typeCheck
  rw [single, Check.require_eq_nil, List.any_cons, List.any_nil, Bool.or_false]

theorem constantCheck_eq_nil {constant : Json} :
    constantCheck constant part = [] ↔ isConstant part constant = true :=
  Check.require_eq_nil

theorem enumCheck_eq_nil {values : List Json} :
    enumCheck (.arr values) part = [] ↔ ∃ value ∈ values, Json.sameValue part value = true := by
  unfold enumCheck
  rw [Check.require_eq_nil, List.any_eq_true]

theorem requiredFailures_eq_nil {names : List String} {members : Entries Json} :
    requiredFailures names members = [] ↔ names ⊆ Entries.names members := by
  unfold requiredFailures
  rw [List.flatMap_eq_nil_iff]
  simp only [Check.require_eq_nil, Entries.has_iff_mem_names]
  rfl

theorem texts_strings (names : List String) : texts (Json.strings names) = names := by
  show (names.map Json.str).filterMap _ = names
  rw [List.filterMap_map]
  exact List.filterMap_some

theorem natural_int (count : Nat) : natural? (.int count) = some count := by
  show (if (count : Int) < 0 then none else some (count : Int).toNat) = some count
  rw [if_neg (Int.not_lt.mpr (Int.natCast_nonneg count)), Int.toNat_natCast]

theorem atLeast_items_eq_nil {items : List Json} {least : Nat} :
    atLeast .items (.int least) (.arr items) = [] ↔ least ≤ items.length := by
  unfold atLeast measured?
  rw [natural_int]
  dsimp only
  rw [Check.require_eq_nil, decide_eq_true_iff]

theorem atMost_items_eq_nil {items : List Json} {most : Nat} :
    atMost .items (.int most) (.arr items) = [] ↔ items.length ≤ most := by
  unfold atMost measured?
  rw [natural_int]
  dsimp only
  rw [Check.require_eq_nil, decide_eq_true_iff]

/-- One schema for all items. -/
theorem itemsCheck_eq_nil {value : Json} {view : View} {items : List Json}
    (single : ∀ places, value ≠ .arr places) :
    itemsCheck value view (.arr items) = [] ↔ ∀ item ∈ items, view.schema item = [] := by
  have same : itemsCheck value view (.arr items) =
      Check.items (fun _ => view.schema) 0 items := by
    unfold itemsCheck
    dsimp only
    split
    next places => exact absurd rfl (single places)
    next => rfl
  rw [same, Check.items_eq_nil]
  constructor
  · intro each item present
    obtain ⟨place, found⟩ := List.mem_iff_getElem?.mp present
    exact each place item found
  · exact fun each place item found => each item (List.mem_of_getElem? found)

/-- A schema for each place; further items are free. -/
theorem itemsCheck_arr_eq_nil {places : List Json} {items : List Json} :
    itemsCheck (.arr places) (view check (.arr places)) (.arr items) = [] ↔
      ∀ (place : Nat) (schema item : Json), places[place]? = some schema →
        items[place]? = some item →
        (view check schema).schema item = [] := by
  show Check.items (fun place => ((itemViews check places)[place]?).getD fun _ => []) 0 items = [] ↔ _
  rw [Check.items_eq_nil, itemViews_eq_map]
  constructor
  · intro each place schema item own found
    have there := each place item found
    rwa [Nat.zero_add, List.getElem?_map, own] at there
  · intro each place item found
    rw [Nat.zero_add, List.getElem?_map]
    cases own : places[place]? with
    | none => rfl
    | some schema => exact each place schema item own found

theorem propertiesCheck_eq_nil {properties members : Entries Json} :
    propertiesCheck (view check (.obj properties)) (.obj members) = [] ↔
      ∀ name value, (name, value) ∈ members → ∀ schema,
        Entries.get? properties name = some schema → (view check schema).schema value = [] := by
  unfold propertiesCheck
  dsimp only
  rw [List.flatMap_eq_nil_iff, Prod.forall]
  refine forall₂_congr fun name value => imp_congr_right fun _ => ?_
  have views : Entries.get? (view check (.obj properties)).members name =
      (Entries.get? properties name).map fun schema => (view check schema).schema := by
    show Entries.get? ((memberViews check properties).map fun entry => (entry.1, entry.2.schema))
      name = _
    rw [memberViews_eq_map, List.map_map]
    exact Entries.get?_map properties name fun schema => (view check schema).schema
  rw [views]
  cases Entries.get? properties name with
  | none => simp
  | some schema => simp [Check.member_eq_nil]

theorem isAdditional_iff {keywords : Entries Json} {key : String}
    (unpatterned : Entries.get? keywords "patternProperties" = none) :
    isAdditional keywords key = true ↔ key ∉ siblingNames keywords "properties" := by
  have patterns : siblingNames keywords "patternProperties" = [] := by
    unfold siblingNames
    rw [unpatterned]
  unfold isAdditional
  rw [patterns]
  simp

/-- Members with names of their own are left out; the two boolean schemas are no exception. -/
theorem additionalPropertiesCheck_eq_nil {keywords members : Entries Json} {value : Json} :
    additionalPropertiesCheck keywords value (view check value) (.obj members) = [] ↔
      ∀ name inner, (name, inner) ∈ members → isAdditional keywords name = true →
        (view check value).schema inner = [] := by
  unfold additionalPropertiesCheck
  dsimp only
  split
  next => exact ⟨fun _ _ _ _ _ => rfl, fun _ => rfl⟩
  next =>
    -- `false` admits no member, whichever of its two reports it gives.
    have none : (∀ name inner, (name, inner) ∈ members → isAdditional keywords name = true →
        (view check (.bool false)).schema inner = []) ↔
        (members.filter fun member => isAdditional keywords member.1) = [] := by
      rw [List.filter_eq_nil_iff, Prod.forall]
      refine forall₂_congr fun name inner => imp_congr_right fun _ => imp_congr_right fun _ => ?_
      exact ⟨nofun, nofun⟩
    rw [none]
    split
    next => rw [Check.require_eq_nil, List.isEmpty_iff]
    next =>
      split
      next first rest found => rw [found]; exact ⟨nofun, nofun⟩
      next found => rw [found]; exact ⟨fun _ => rfl, fun _ => rfl⟩
  next =>
    rw [List.flatMap_eq_nil_iff, Prod.forall]
    refine forall₂_congr fun name inner => ?_
    rw [List.mem_filter, and_imp, Check.member_eq_nil]

theorem dependenciesCheck_eq_nil {dependencies : Entries (List String)} {view : View}
    {members : Entries Json} :
    dependenciesCheck (.obj (dependencies.map fun entry => (entry.1, Json.strings entry.2))) view
        (.obj members) = [] ↔
      ∀ key names, (key, names) ∈ dependencies → key ∈ Entries.names members →
        names ⊆ Entries.names members := by
  unfold dependenciesCheck
  dsimp only
  rw [List.flatMap_map, List.flatMap_eq_nil_iff, Prod.forall]
  refine forall₂_congr fun key names => imp_congr_right fun _ => ?_
  dsimp only
  split
  next present =>
    have listed := Entries.has_iff_mem_names.mp present
    show requiredFailures (texts (Json.strings names)) members = [] ↔ _
    rw [texts_strings, requiredFailures_eq_nil]
    exact ⟨fun holds _ => holds, fun holds => holds listed⟩
  next absent =>
    exact ⟨fun _ listed => absurd (Entries.has_iff_mem_names.mpr listed) absent, fun _ => rfl⟩

theorem anyOfCheck_eq_nil {schemas : List Json} :
    anyOfCheck (view check (.arr schemas)) part = [] ↔
      ∃ schema ∈ schemas, (view check schema).schema part = [] := by
  show Check.require ((itemViews check schemas).any fun check => check.passes part) part _ = [] ↔ _
  rw [Check.require_eq_nil, itemViews_eq_map, List.any_map, List.any_eq_true]
  simp only [Function.comp_def, Check.passes, List.isEmpty_iff]

theorem notCheck_eq_nil {source : Json} {view : View} :
    notCheck source view part = [] ↔ view.schema part ≠ [] := by
  unfold notCheck
  rw [Check.require_eq_nil, Check.passes]
  simp

end Schema

/-! ## Equality -/

mutual
theorem Json.sameValue_refl : (value : Json) → Json.sameValue value value = true
  | .null => rfl
  | .bool value => beq_self_eq_true value
  | .int value => beq_self_eq_true (value * (Binary64.oneUnits : Int))
  | .float value => beq_self_eq_true value.units
  | .str value => beq_self_eq_true value
  | .arr items => Json.sameItems_refl items
  | .obj members => Json.sameMembers_refl members

theorem Json.sameItems_refl : (items : List Json) → Json.sameItems items items = true
  | [] => rfl
  | item :: rest => by
    rw [Json.sameItems, Json.sameValue_refl item, Json.sameItems_refl rest]
    rfl

theorem Json.sameMembers_refl :
    (members : List (String × Json)) → Json.sameMembers members members = true
  | [] => rfl
  | (name, value) :: rest => by
    rw [Json.sameMembers, Json.sameValue_refl value, Json.sameMembers_refl rest, beq_self_eq_true]
    rfl
end

/-- The value is no number beyond the finite ones. -/
def Json.HasFiniteValue (value : Json) : Prop :=
  ∀ number, value.toFloat? = some number → number.isFinite = true

theorem Binary64.sub_self_lt_epsilon {x : Binary64} (finite : x.isFinite = true) :
    (x.sub x).abs.lt .epsilon = true := by
  cases x with
  | nan => cases finite
  | signed negative magnitude bounded =>
    have exact : (Binary64.signed negative magnitude bounded).units +
        (Binary64.signed (!negative) magnitude bounded).units = 0 := by
      cases negative with
      | false => exact Int.add_right_neg _
      | true => exact Int.add_left_neg _
    have mirrored : (Binary64.signed (!negative) magnitude bounded).isFinite = true := finite
    unfold sub neg add
    dsimp only
    -- Both summands are finite, so the exact sum is rounded, and zero is not.
    rw [if_pos finite, if_pos mirrored, exact]
    rfl

theorem Schema.isConstant_refl {value : Json} (finite : value.HasFiniteValue) :
    Schema.isConstant value value = true := by
  unfold isConstant
  cases number : value.toFloat? with
  | none => exact Json.sameValue_refl value
  | some x => exact Binary64.sub_self_lt_epsilon (finite x number)

end SchemaSampler
