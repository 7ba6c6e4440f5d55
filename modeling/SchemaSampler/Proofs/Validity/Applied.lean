import Mathlib.Data.List.Basic
import SchemaSampler.Proofs.Validity.Checks

/-!
# What a check consults

A schema judges an instance through the schemas in it. Some apply to the same instance, the others
to its parts, and a reference applies what it leads to and nothing else. Two meanings of references
that agree on all of these give the schema the same failures.

Results:
1. `Schema.keywordCheck_congr`: one keyword.
2. `Schema.view_congr`: a whole schema.
-/

namespace SchemaSampler

theorem Check.items_congr {checkAt twin : Nat → Check} {items : List Json}
    (same : ∀ place, ∀ item ∈ items, checkAt place item = twin place item) (start : Nat) :
    Check.items checkAt start items = Check.items twin start items := by
  induction items generalizing start with
  | nil => rfl
  | cons item rest ih =>
    rw [Check.items, Check.items, same start item List.mem_cons_self,
      ih fun place later present => same place later (List.mem_cons_of_mem _ present)]

namespace Schema

/-! ## Schemas inside a schema -/

/-- What applies is behind a pointer. -/
def IsReference (schema : Json) : Prop := ∃ pointer, schema.get? "$ref" = some (.str pointer)

/-- The schemas that a value lists. -/
def listed : Json → List Json
  | .arr schemas => schemas
  | _ => []

/-- The schemas that a value names. -/
def named : Json → Entries Json
  | .obj schemas => schemas
  | _ => []

/-- The inner schema applies to the instance of the outer one. -/
inductive Beside (schema : Json) : Json → Prop
  | whole {keyword : String} {inner : Json} : keyword ∈ ["not", "if", "then", "else"] →
      schema.get? keyword = some inner → Beside schema inner
  | listed {keyword : String} {value inner : Json} : keyword ∈ ["allOf", "anyOf", "oneOf"] →
      schema.get? keyword = some value → inner ∈ listed value → Beside schema inner
  | dependency {name : String} {value inner : Json} : schema.get? "dependencies" = some value →
      (named value).get? name = some inner → Beside schema inner

/-- The inner schema applies to parts of the instance, or to names in it. -/
inductive Below (schema : Json) : Json → Prop
  | whole {keyword : String} {inner : Json} :
      keyword ∈ ["items", "additionalItems", "contains", "additionalProperties", "propertyNames"] →
      schema.get? keyword = some inner → Below schema inner
  | place {value inner : Json} : schema.get? "items" = some value → inner ∈ listed value →
      Below schema inner
  | member {keyword name : String} {value inner : Json} :
      keyword ∈ ["properties", "patternProperties"] → schema.get? keyword = some value →
      (name, inner) ∈ named value → Below schema inner

section Absent

variable {schema inner : Json}

theorem get?_ne_some_of_isNone {keywords : List String} {keyword : String} {value : Json}
    (absent : ∀ keyword ∈ keywords, (schema.get? keyword).isNone) (known : keyword ∈ keywords) :
    schema.get? keyword ≠ some value := by
  intro stated
  have nothing := absent keyword known
  rw [stated] at nothing
  cases nothing

/-- Without these keywords nothing else applies to the same instance. -/
theorem not_beside
    (absent : ∀ keyword ∈ ["not", "if", "then", "else", "allOf", "anyOf", "oneOf", "dependencies"],
      (schema.get? keyword).isNone) : ¬ Beside schema inner := by
  rintro (⟨own, stated⟩ | ⟨own, stated, -⟩ | ⟨stated, -⟩)
  · have known := List.mem_append_left ["allOf", "anyOf", "oneOf", "dependencies"] own
    exact get?_ne_some_of_isNone absent known stated
  · have known := List.mem_append_right ["not", "if", "then", "else"]
      (List.mem_append_left ["dependencies"] own)
    exact get?_ne_some_of_isNone absent known stated
  · exact get?_ne_some_of_isNone absent (by decide) stated

/-- Without these keywords nothing applies to parts of the instance. -/
theorem not_below
    (absent : ∀ keyword ∈ ["items", "additionalItems", "contains", "additionalProperties",
      "propertyNames", "properties", "patternProperties"], (schema.get? keyword).isNone) :
    ¬ Below schema inner := by
  rintro (⟨own, stated⟩ | ⟨stated, -⟩ | ⟨own, stated, -⟩)
  · have known := List.mem_append_left ["properties", "patternProperties"] own
    exact get?_ne_some_of_isNone absent known stated
  · exact get?_ne_some_of_isNone absent (by decide) stated
  · have known := List.mem_append_right
      ["items", "additionalItems", "contains", "additionalProperties", "propertyNames"] own
    exact get?_ne_some_of_isNone absent known stated

end Absent

/-! ## Keywords -/

/-- The schema finds the same failures with both ways to follow references. -/
def SameOn (follow other : String → Check) (part schema : Json) : Prop :=
  (view follow schema).schema part = (view other schema).schema part

section Keywords

variable {follow other : String → Check} {members : Entries Json} {value stated part : Json}

theorem view_listed (stated : Json) : (view follow stated).items =
    (listed stated).map fun inner => (view follow inner).schema := by
  cases stated with
  | arr schemas => rw [view, itemViews_eq_map, listed]
  | bool given => cases given <;> rfl
  | _ => rfl

theorem view_named (stated : Json) : (view follow stated).members =
    (named stated).map fun entry => (entry.1, (view follow entry.2).schema) := by
  cases stated with
  | obj schemas =>
    rw [view, memberViews_eq_map, named]
    exact List.map_map
  | bool given => cases given <;> rfl
  | _ => rfl

theorem get?_view_named (stated : Json) (name : String) :
    (view follow stated).members.get? name =
      ((named stated).get? name).map fun inner => (view follow inner).schema := by
  rw [view_named]
  exact Entries.get?_map (named stated) name fun inner => (view follow inner).schema

theorem any_congr {α : Type} {items : List α} {holds twin : α → Bool}
    (same : ∀ item ∈ items, holds item = twin item) : items.any holds = items.any twin := by
  have results := congrArg (fun results => List.any results id) (List.map_congr_left same)
  simpa only [List.any_map, Function.id_comp] using results

theorem passes_congr {schema : Json} (same : SameOn follow other part schema) :
    (view follow schema).schema.passes part = (view other schema).schema.passes part :=
  congrArg List.isEmpty same

theorem allOf_congr (same : ∀ inner ∈ listed stated, SameOn follow other part inner) :
    Check.all (view follow stated).items part = Check.all (view other stated).items part := by
  simp only [Check.all, view_listed, List.flatMap_map]
  exact List.flatMap_congr same

theorem anyOfCheck_congr (same : ∀ inner ∈ listed stated, SameOn follow other part inner) :
    anyOfCheck (view follow stated) part = anyOfCheck (view other stated) part := by
  simp only [anyOfCheck, view_listed, List.any_map, Function.comp_def]
  rw [any_congr fun inner present => passes_congr (same inner present)]

theorem oneOfCheck_congr (same : ∀ inner ∈ listed stated, SameOn follow other part inner) :
    oneOfCheck (view follow stated) part = oneOfCheck (view other stated) part := by
  simp only [oneOfCheck, view_listed, List.filter_map, Function.comp_def]
  rw [List.filter_congr fun inner present => passes_congr (same inner present)]
  -- Both checks ask only how many alternatives pass.
  generalize (listed stated).filter _ = passing
  match passing with
  | [] | [_] | _ :: _ :: _ => rfl

theorem conditionalCheck_congr (condition : SameOn follow other part stated)
    (branch : ∀ keyword ∈ ["then", "else"], ∀ inner, members.get? keyword = some inner →
      SameOn follow other part inner) :
    conditionalCheck (view follow stated) (memberViews follow members) part =
      conditionalCheck (view other stated) (memberViews other members) part := by
  have same : ∀ keyword ∈ ["then", "else"],
      (((memberViews follow members : Entries View).get? keyword).map
        fun view => view.schema part).getD [] =
      (((memberViews other members : Entries View).get? keyword).map
        fun view => view.schema part).getD [] := by
    intro keyword either
    rw [memberViews_eq_map, memberViews_eq_map, Entries.get?_map, Entries.get?_map]
    cases found : members.get? keyword with
    | none => rfl
    | some inner => exact branch keyword either inner found
  unfold conditionalCheck
  dsimp only
  rw [passes_congr condition]
  cases (view other stated).schema.passes part with
  | true => exact same "then" (by simp)
  | false => exact same "else" (by simp)

theorem dependenciesCheck_congr (same : ∀ name inner, (named stated).get? name = some inner →
    SameOn follow other part inner) :
    dependenciesCheck value (view follow stated) part =
      dependenciesCheck value (view other stated) part := by
  cases part with
  | obj present =>
    cases value with
    | obj dependencies =>
      refine List.flatMap_congr fun entry _ => ?_
      dsimp only
      rw [get?_view_named, get?_view_named]
      cases found : (named stated).get? entry.1 with
      | none => rfl
      | some inner =>
        dsimp only [Option.map_some]
        rw [same entry.1 inner found]
    | _ => rfl
  | _ => rfl

theorem itemsCheck_congr
    (whole : ∀ deeper : Json, deeper.depth < part.depth → SameOn follow other deeper stated)
    (each : ∀ inner ∈ listed stated, ∀ deeper : Json, deeper.depth < part.depth →
      SameOn follow other deeper inner) :
    itemsCheck value (view follow stated) part = itemsCheck value (view other stated) part := by
  cases part with
  | arr items =>
    cases value with
    | arr places =>
      refine Check.items_congr (fun place item present => ?_) 0
      simp only [view_listed, List.getElem?_map]
      cases found : (listed stated)[place]? with
      | none => rfl
      | some inner => exact each inner (List.mem_of_getElem? found) item (Json.depth_lt_of_item present)
    | _ =>
      exact Check.items_congr (fun _ item present => whole item (Json.depth_lt_of_item present)) 0
  | _ => rfl

theorem additionalItemsCheck_congr
    (whole : ∀ deeper : Json, deeper.depth < part.depth → SameOn follow other deeper stated) :
    additionalItemsCheck members value (view follow stated) part =
      additionalItemsCheck members value (view other stated) part := by
  cases part with
  | arr items =>
    have same (start : Nat) : Check.items (fun _ => (view follow stated).schema) start
        (items.drop start) = Check.items (fun _ => (view other stated).schema) start
          (items.drop start) :=
      Check.items_congr (fun _ item present =>
        whole item (Json.depth_lt_of_item (List.mem_of_mem_drop present))) start
    simp only [additionalItemsCheck, same]
  | _ => rfl

theorem containsCheck_congr
    (whole : ∀ deeper : Json, deeper.depth < part.depth → SameOn follow other deeper stated) :
    containsCheck (view follow stated) part = containsCheck (view other stated) part := by
  cases part with
  | arr items =>
    unfold containsCheck
    dsimp only
    rw [any_congr fun item present =>
      passes_congr (whole item (Json.depth_lt_of_item present))]
  | _ => rfl

theorem additionalPropertiesCheck_congr
    (whole : ∀ deeper : Json, deeper.depth < part.depth → SameOn follow other deeper stated) :
    additionalPropertiesCheck members value (view follow stated) part =
      additionalPropertiesCheck members value (view other stated) part := by
  cases part with
  | obj present =>
    have same : ∀ member ∈ present.filter (fun member => isAdditional members member.1),
        Check.member (view follow stated).schema member.1 member.2 =
          Check.member (view other stated).schema member.1 member.2 := by
      intro member extra
      have inside := Json.depth_lt_of_member (List.mem_filter.mp extra).1
      exact congrArg (List.map _) (whole member.2 inside)
    unfold additionalPropertiesCheck
    dsimp only
    rw [List.flatMap_congr same]
  | _ => rfl

theorem propertyNamesCheck_congr
    (whole : ∀ deeper : Json, deeper.depth < part.depth → SameOn follow other deeper stated) :
    propertyNamesCheck (view follow stated) part = propertyNamesCheck (view other stated) part := by
  cases part with
  | obj present => exact List.flatMap_congr fun name _ => whole (.str name) (Nat.succ_pos _)
  | _ => rfl

theorem propertiesCheck_congr (each : ∀ name inner, (name, inner) ∈ named stated →
    ∀ deeper : Json, deeper.depth < part.depth → SameOn follow other deeper inner) :
    propertiesCheck (view follow stated) part = propertiesCheck (view other stated) part := by
  cases part with
  | obj present =>
    refine List.flatMap_congr fun member inside => ?_
    dsimp only
    rw [get?_view_named, get?_view_named]
    cases found : (named stated).get? member.1 with
    | none => rfl
    | some inner =>
      exact congrArg (List.map _) (each _ inner (Entries.mem_of_get?_eq_some found) member.2
        (Json.depth_lt_of_member inside))
  | _ => rfl

theorem patternPropertiesCheck_congr (each : ∀ name inner, (name, inner) ∈ named stated →
    ∀ deeper : Json, deeper.depth < part.depth → SameOn follow other deeper inner) :
    patternPropertiesCheck (view follow stated) part =
      patternPropertiesCheck (view other stated) part := by
  cases part with
  | obj present =>
    simp only [patternPropertiesCheck, view_named, List.flatMap_map]
    refine List.flatMap_congr fun entry given => List.flatMap_congr fun member matched => ?_
    exact congrArg (List.map _) (each _ entry.2 given member.2
      (Json.depth_lt_of_member (List.mem_filter.mp matched).1))
  | _ => rfl

/-- A keyword finds the same failures if the schemas in it do. -/
theorem keywordCheck_congr {name : String} (found : members.get? name = some stated)
    (beside : ∀ inner, Beside (.obj members) inner → SameOn follow other part inner)
    (below : ∀ inner, Below (.obj members) inner → ∀ deeper : Json, deeper.depth < part.depth →
      SameOn follow other deeper inner) :
    keywordCheck members (memberViews follow members) name value (view follow stated) part =
      keywordCheck members (memberViews other members) name value (view other stated) part := by
  have whole {keyword : String} (same : name = keyword)
      (single : keyword ∈ ["items", "additionalItems", "contains", "additionalProperties",
        "propertyNames"]) (deeper : Json) (inside : deeper.depth < part.depth) :
      SameOn follow other deeper stated := below stated (.whole (same ▸ single) found) deeper inside
  have each {keyword : String} (same : name = keyword)
      (list : keyword ∈ ["allOf", "anyOf", "oneOf"]) (inner : Json) (present : inner ∈ listed stated) :
      SameOn follow other part inner := beside inner (.listed (same ▸ list) found present)
  have member {keyword : String} (same : name = keyword)
      (map : keyword ∈ ["properties", "patternProperties"]) (key : String) (inner : Json)
      (present : (key, inner) ∈ named stated) (deeper : Json) (inside : deeper.depth < part.depth) :
      SameOn follow other deeper inner :=
    below inner (.member (same ▸ map) found present) deeper inside
  unfold keywordCheck
  split
  all_goals try rfl
  · exact itemsCheck_congr (whole rfl (by simp)) fun inner present =>
      below inner (.place found present)
  · exact additionalItemsCheck_congr (whole rfl (by simp))
  · exact containsCheck_congr (whole rfl (by simp))
  · exact propertiesCheck_congr (member rfl (by simp))
  · exact patternPropertiesCheck_congr (member rfl (by simp))
  · exact additionalPropertiesCheck_congr (whole rfl (by simp))
  · exact propertyNamesCheck_congr (whole rfl (by simp))
  · exact dependenciesCheck_congr fun key inner given => beside inner (.dependency found given)
  · exact allOf_congr (each rfl (by simp))
  · exact anyOfCheck_congr (each rfl (by simp))
  · exact oneOfCheck_congr (each rfl (by simp))
  · have same : SameOn follow other part stated := beside stated (.whole (by simp) found)
    unfold notCheck
    rw [passes_congr same]
  · refine conditionalCheck_congr (beside stated (.whole (by simp) found)) ?_
    intro keyword either inner given
    exact beside inner
      (.whole (List.mem_cons_of_mem _ (List.mem_cons_of_mem _ either)) given)

end Keywords

/-- A schema finds the same failures if what it applies does. -/
theorem view_congr {follow other : String → Check} {schema part : Json}
    (reference : ∀ pointer, schema.get? "$ref" = some (.str pointer) →
      follow pointer part = other pointer part)
    (beside : ¬ IsReference schema → ∀ inner, Beside schema inner → SameOn follow other part inner)
    (below : ¬ IsReference schema → ∀ inner, Below schema inner → ∀ deeper : Json,
      deeper.depth < part.depth → SameOn follow other deeper inner) :
    SameOn follow other part schema := by
  cases schema with
  | obj members =>
    show objectCheck follow members (memberViews follow members) part =
      objectCheck other members (memberViews other members) part
    unfold objectCheck
    split
    next pointer found => exact reference pointer found
    next plain =>
      have unreferenced : ¬ IsReference (.obj members) := fun ⟨pointer, found⟩ =>
        plain pointer found
      refine List.flatMap_congr fun (name, value) _ => ?_
      dsimp only
      have stated (check : String → Check) : Entries.get? (memberViews check members) name =
          (Entries.get? members name).map (view check) := by
        rw [memberViews_eq_map]
        exact Entries.get?_map members name (view check)
      rw [stated, stated]
      cases found : Entries.get? members name with
      | none => rfl
      | some stated => exact keywordCheck_congr found (beside unreferenced) (below unreferenced)
  | bool given => cases given <;> rfl
  | _ => rfl

end Schema

end SchemaSampler
