import SchemaSampler.Definitions
import SchemaSampler.Proofs.Hoist.Parts
import SchemaSampler.Proofs.Validity.Checks
import SchemaSampler.Schema.Document

/-!
# A fragment of schemas

`Schema.Plain` describes schemas that combine types, fixed values, arrays, objects, unions,
negations without references and references to definitions. They are given by their members in
the order of names; `definitions` may stand beside the keywords of any of them. The description
includes what keeps synthetic keys out of the schema and objects consistent with themselves.

Results:
1. `Schema.Plain`, `Schema.PlainDocument`: the fragment.
2. `view_array_eq_nil`, `view_record_eq_nil` and the other forms: what a validator asks of an
   instance, in terms of the inner schemas.
3. `Plain.view_agree`: without references it asks the same whatever references stand for.
-/

namespace SchemaSampler

namespace Schema

/-! ## The fragment -/

/-- A keyword that may be missing. -/
def optional {α : Type} (keyword : Keyword) (write : α → Json) (value : Option α) :
    List (String × Json) :=
  (value.map fun inner => (keyword.name, write inner)).toList

/-- The members of an array schema. -/
def arrayMembers (definitions : Option (Entries Json)) (items : Option Json)
    (most least : Option Nat) : List (String × Json) :=
  optional .definitions .obj definitions ++ (optional .items id items ++
    (optional .maxItems Keywords.naturalJson most ++
      (optional .minItems Keywords.naturalJson least ++ [("type", .str "array")])))

/-- The keywords of an object schema. -/
structure RecordKeywords where
  additional : Option Json
  definitions : Option (Entries Json)
  dependencies : Option (Entries (List String))
  properties : Option (Entries Json)
  required : Option (List String)

namespace RecordKeywords

/-- The list form of dependencies. -/
def dependencyLists (dependencies : Entries (List String)) : Json :=
  .obj (dependencies.map fun entry => (entry.1, Json.strings entry.2))

def members (keywords : RecordKeywords) : List (String × Json) :=
  optional .additionalProperties id keywords.additional ++
    (optional .definitions .obj keywords.definitions ++
      (optional .dependencies dependencyLists keywords.dependencies ++
        (optional .properties .obj keywords.properties ++
          (optional .required Json.strings keywords.required ++ [("type", .str "object")]))))

/-- The declared properties. -/
def declared (keywords : RecordKeywords) : Entries Json := keywords.properties.getD []

/-- The required names. -/
def wanted (keywords : RecordKeywords) : List String := keywords.required.getD []

/-- The dependencies between keys. -/
def between (keywords : RecordKeywords) : Entries (List String) := keywords.dependencies.getD []

/-- Names are not synthetic, and no key has its dependencies twice. Where further members are
forbidden, required ones are declared; where they are drawn, every key with dependencies is
declared or required. -/
structure Consistent (keys : SyntheticKeys) (keywords : RecordKeywords) : Prop where
  declared_free : ∀ name ∈ Entries.names keywords.declared, keys.contains name = false
  wanted_free : ∀ name ∈ keywords.wanted, keys.contains name = false
  wanted_declared : keywords.additional = some (.bool false) →
    keywords.wanted ⊆ Entries.names keywords.declared
  between_distinct : (Entries.names keywords.between).Nodup
  between_declared : ∀ schema, keywords.additional = some schema → schema ≠ .bool false →
    ∀ name ∈ Entries.names keywords.between,
      name ∈ Entries.names keywords.declared ∨ name ∈ keywords.wanted

end RecordKeywords

/-- The characters are ASCII letters, digits, underscores and hyphens. -/
def SimpleName (name : String) : Prop :=
  (name.toList.all fun c => c.isAlphanum || c == '_' || c == '-') = true

/-- The pointer to a definition. -/
def definitionPointer (name : String) : String := "#/definitions/" ++ name

/-- The pointer leads to the root or to a definition with a simple name. -/
def IsLink (pointer : String) : Prop :=
  pointer = rootPointer ∨ ∃ name, pointer = definitionPointer name ∧ SimpleName name

/-- Schemas of the fragment, with or without references. Fixed numbers are finite, as all numbers
in JSON texts are. -/
inductive Plain (keys : SyntheticKeys) : (references : Bool) → Json → Prop
  | anything {references : Bool} : Plain keys references (.bool true)
  | empty {references : Bool} {definitions : Option (Entries Json)} :
      Plain keys references (.obj (optional .definitions .obj definitions))
  | scalar {references : Bool} {definitions : Option (Entries Json)} {type : TypeName} :
      type ≠ .array → type ≠ .object →
      Plain keys references
        (.obj (optional .definitions .obj definitions ++ [("type", .str type.name)]))
  | constant {references : Bool} {definitions : Option (Entries Json)} {value : Json} :
      value.FreeOf keys → value.HasFiniteValue →
      Plain keys references (.obj (("const", value) :: optional .definitions .obj definitions))
  | enumeration {references : Bool} {definitions : Option (Entries Json)} {values : List Json} :
      (∀ value ∈ values, value.FreeOf keys) →
      Plain keys references
        (.obj (optional .definitions .obj definitions ++ [("enum", .arr values)]))
  | array {references : Bool} {definitions : Option (Entries Json)} {items : Option Json}
      {most least : Option Nat} : (∀ schema, items = some schema → Plain keys references schema) →
      Plain keys references (.obj (arrayMembers definitions items most least))
  | tuple {references : Bool} {definitions : Option (Entries Json)} {items : List Json} :
      (∀ item ∈ items, Plain keys references item) →
      Plain keys references (.obj (arrayMembers definitions (some (.arr items)) none none))
  | record {references : Bool} {keywords : RecordKeywords} : keywords.Consistent keys →
      (∀ entry ∈ keywords.declared, Plain keys references entry.2) →
      (∀ schema, keywords.additional = some schema → schema ≠ .bool false →
        Plain keys references schema) →
      Plain keys references (.obj keywords.members)
  | anyOf {references : Bool} {definitions : Option (Entries Json)} {schemas : List Json} :
      (∀ schema ∈ schemas, Plain keys references schema) →
      Plain keys references (.obj (("anyOf", .arr schemas) :: optional .definitions .obj definitions))
  | negation {references : Bool} {definitions : Option (Entries Json)} {negated : Json} :
      Plain keys false negated →
      Plain keys references (.obj (optional .definitions .obj definitions ++ [("not", negated)]))
  | reference {definitions : Option (Entries Json)} {pointer : String} : IsLink pointer →
      Plain keys true (.obj (("$ref", .str pointer) :: optional .definitions .obj definitions))

/-- The root and its definitions are in the fragment. -/
structure PlainDocument (keys : SyntheticKeys) (schema : Json) : Prop where
  root : Plain keys true schema
  definitions : ∀ members, Document.definitionsOf schema = .obj members →
    (Entries.names members).Nodup ∧ ∀ entry ∈ members, Plain keys true entry.2

/-! ## Lists of members -/

section Members

variable {α : Type} {keyword : Keyword} {write : α → Json} {value : Option α}
  {rest : List (String × Json)}

theorem forall_mem_optional {holds : String × Json → Prop} :
    (∀ member ∈ optional keyword write value, holds member) ↔
      ∀ inner, value = some inner → holds (keyword.name, write inner) := by
  cases value <;> simp [optional]

theorem names_optional_sublist (write : α → Json) (value : Option α) :
    (Entries.names (optional keyword write value)).Sublist [keyword.name] := by
  cases value with
  | none => exact List.nil_sublist _
  | some inner => exact List.Sublist.refl _

theorem get?_optional (write : α → Json) (value : Option α) (name : String) :
    Entries.get? (optional keyword write value) name =
      if name = keyword.name then value.map write else none := by
  cases value with
  | none => simp [optional, Entries.get?]
  | some inner => exact Entries.get?_cons keyword.name name (write inner) []

/-- The names of the members are among the names of all keywords that may stand there. -/
theorem names_optional_append_sublist {names : List String}
    (others : (Entries.names rest).Sublist names) :
    (Entries.names (optional keyword write value ++ rest)).Sublist (keyword.name :: names) := by
  rw [Entries.names, List.map_append]
  exact (names_optional_sublist write value).append others

end Members

variable {check : String → Check} {part : Json} {definitions : Option (Entries Json)}

/-! ## What the forms ask for -/

/-- A schema object whose names are among different ones, none of them a reference. -/
theorem view_eq_nil_of_sublist {members : List (String × Json)} {names : List String}
    (among : (Entries.names members).Sublist names) (distinct : names.Nodup)
    (plain : "$ref" ∉ names) :
    (view check (.obj members)).schema part = [] ↔
      ∀ member ∈ members, keywordCheck members (memberViews check members) member.1 member.2
        (view check member.2) part = [] :=
  view_obj_eq_nil (among.nodup distinct) fun present => plain (among.subset present)

theorem view_empty :
    (view check (.obj (optional .definitions .obj definitions))).schema part = [] := by
  rw [view_eq_nil_of_sublist (names_optional_sublist _ _) (by decide) (by decide),
    forall_mem_optional]
  exact fun _ _ => rfl

/-- One keyword in front of definitions, which ask for nothing. -/
theorem view_before_definitions {name : String} {value : Json} (other : name ≠ "definitions")
    (plain : name ≠ "$ref") :
    (view check (.obj ((name, value) :: optional .definitions .obj definitions))).schema part = [] ↔
      keywordCheck ((name, value) :: optional .definitions .obj definitions)
        (memberViews check ((name, value) :: optional .definitions .obj definitions)) name value
        (view check value) part = [] := by
  have among : (Entries.names ((name, value) ::
      optional .definitions .obj definitions)).Sublist [name, "definitions"] :=
    (names_optional_sublist _ _).cons_cons _
  rw [view_eq_nil_of_sublist among (by simp [other]) (by simp [plain.symm]),
    List.forall_mem_cons, forall_mem_optional]
  exact ⟨fun each => each.1, fun passed => ⟨passed, fun _ _ => rfl⟩⟩

/-- One keyword behind definitions. -/
theorem view_after_definitions {name : String} {value : Json} (other : name ≠ "definitions")
    (plain : name ≠ "$ref") :
    (view check (.obj (optional .definitions .obj definitions ++ [(name, value)]))).schema part = [] ↔
      keywordCheck (optional .definitions .obj definitions ++ [(name, value)])
        (memberViews check (optional .definitions .obj definitions ++ [(name, value)])) name value
        (view check value) part = [] := by
  have among : (Entries.names (optional .definitions .obj definitions ++
      [(name, value)])).Sublist ["definitions", name] :=
    names_optional_append_sublist (List.Sublist.refl _)
  rw [view_eq_nil_of_sublist among (by simp [other.symm]) (by simp [plain.symm]),
    List.forall_mem_append, forall_mem_optional, List.forall_mem_singleton]
  exact ⟨fun each => each.2, fun passed => ⟨fun _ _ => rfl, passed⟩⟩

theorem view_scalar_eq_nil {type : TypeName} :
    (view check (.obj (optional .definitions .obj definitions ++
      [("type", .str type.name)]))).schema part = [] ↔ type.admits part = true :=
  (view_after_definitions (by decide) (by decide)).trans typeCheck_eq_nil

theorem view_constant_eq_nil {value : Json} :
    (view check (.obj (("const", value) ::
      optional .definitions .obj definitions))).schema part = [] ↔
      isConstant part value = true :=
  (view_before_definitions (by decide) (by decide)).trans constantCheck_eq_nil

theorem view_enumeration_eq_nil {values : List Json} :
    (view check (.obj (optional .definitions .obj definitions ++
      [("enum", .arr values)]))).schema part = [] ↔
      ∃ value ∈ values, Json.sameValue part value = true :=
  (view_after_definitions (by decide) (by decide)).trans enumCheck_eq_nil

theorem view_anyOf_eq_nil {schemas : List Json} :
    (view check (.obj (("anyOf", .arr schemas) ::
      optional .definitions .obj definitions))).schema part = [] ↔
      ∃ schema ∈ schemas, (view check schema).schema part = [] :=
  (view_before_definitions (by decide) (by decide)).trans anyOfCheck_eq_nil

theorem view_negation_eq_nil {negated : Json} :
    (view check (.obj (optional .definitions .obj definitions ++
      [("not", negated)]))).schema part = [] ↔ (view check negated).schema part ≠ [] :=
  (view_after_definitions (by decide) (by decide)).trans notCheck_eq_nil

theorem view_link {pointer : String} :
    (view check (.obj (("$ref", .str pointer) ::
      optional .definitions .obj definitions))).schema part = check pointer part :=
  view_reference (Entries.get?_cons_self _ _ _)

section Array

variable {items : Option Json} {most least : Option Nat}

theorem view_arrayMembers :
    (view check (.obj (arrayMembers definitions items most least))).schema part = [] ↔
      TypeName.array.admits part = true ∧
      (∀ schema, items = some schema → itemsCheck schema (view check schema) part = []) ∧
      (∀ count, most = some count → atMost .items (Keywords.naturalJson count) part = []) ∧
      ∀ count, least = some count → atLeast .items (Keywords.naturalJson count) part = [] := by
  have among : (Entries.names (arrayMembers definitions items most least)).Sublist
      ["definitions", "items", "maxItems", "minItems", "type"] :=
    names_optional_append_sublist <| names_optional_append_sublist <|
      names_optional_append_sublist <| names_optional_append_sublist <| List.Sublist.refl _
  rw [view_eq_nil_of_sublist among (by decide) (by decide), arrayMembers, List.forall_mem_append,
    List.forall_mem_append, List.forall_mem_append, List.forall_mem_append, forall_mem_optional,
    forall_mem_optional, forall_mem_optional, forall_mem_optional, List.forall_mem_singleton]
  constructor
  · rintro ⟨-, inner, above, below, typed⟩
    exact ⟨typeCheck_eq_nil.mp typed, inner, above, below⟩
  · rintro ⟨typed, inner, above, below⟩
    exact ⟨fun _ _ => rfl, inner, above, below, typeCheck_eq_nil.mpr typed⟩

theorem admits_array : TypeName.array.admits part = true ↔ ∃ values, part = .arr values := by
  cases part <;> simp [TypeName.admits]

theorem admits_object : TypeName.object.admits part = true ↔ ∃ members, part = .obj members := by
  cases part <;> simp [TypeName.admits]

/-- A list schema asks for a list within its bounds whose items pass. -/
theorem view_array_eq_nil (single : ∀ places, items ≠ some (.arr places)) :
    (view check (.obj (arrayMembers definitions items most least))).schema part = [] ↔
      ∃ values, part = .arr values ∧ (∀ count, most = some count → values.length ≤ count) ∧
        (∀ count, least = some count → count ≤ values.length) ∧
        ∀ schema, items = some schema → ∀ value ∈ values, (view check schema).schema value = [] := by
  rw [view_arrayMembers, admits_array]
  constructor
  · rintro ⟨⟨values, rfl⟩, inner, above, below⟩
    refine ⟨values, rfl, fun count given => atMost_items_eq_nil.mp (above count given),
      fun count given => atLeast_items_eq_nil.mp (below count given), fun schema given => ?_⟩
    have notPlaces : ∀ places, schema ≠ .arr places := fun places same =>
      single places (given.trans (congrArg some same))
    exact (itemsCheck_eq_nil notPlaces).mp (inner schema given)
  · rintro ⟨values, rfl, above, below, inner⟩
    refine ⟨⟨values, rfl⟩, fun schema given => ?_,
      fun count given => atMost_items_eq_nil.mpr (above count given),
      fun count given => atLeast_items_eq_nil.mpr (below count given)⟩
    have notPlaces : ∀ places, schema ≠ .arr places := fun places same =>
      single places (given.trans (congrArg some same))
    exact (itemsCheck_eq_nil notPlaces).mpr (inner schema given)

/-- A tuple schema asks for a list whose items pass the schemas of their places. -/
theorem view_tuple_eq_nil {places : List Json} :
    (view check (.obj (arrayMembers definitions (some (.arr places)) none none))).schema part = [] ↔
      ∃ values, part = .arr values ∧
        ∀ (place : Nat) (schema value : Json), places[place]? = some schema →
          values[place]? = some value → (view check schema).schema value = [] := by
  rw [view_arrayMembers, admits_array]
  constructor
  · rintro ⟨⟨values, rfl⟩, inner, -, -⟩
    exact ⟨values, rfl, itemsCheck_arr_eq_nil.mp (inner _ rfl)⟩
  · rintro ⟨values, rfl, inner⟩
    refine ⟨⟨values, rfl⟩, fun schema given => ?_, nofun, nofun⟩
    cases given
    exact itemsCheck_arr_eq_nil.mpr inner

end Array

section Record

variable {keywords : RecordKeywords}

theorem names_members :
    (Entries.names keywords.members).Sublist ["additionalProperties", "definitions",
      "dependencies", "properties", "required", "type"] :=
  names_optional_append_sublist <| names_optional_append_sublist <|
    names_optional_append_sublist <| names_optional_append_sublist <|
    names_optional_append_sublist <| List.Sublist.refl _

theorem view_members :
    (view check (.obj keywords.members)).schema part = [] ↔
      TypeName.object.admits part = true ∧
      (∀ schema, keywords.additional = some schema →
        additionalPropertiesCheck keywords.members schema (view check schema) part = []) ∧
      (∀ lists, keywords.dependencies = some lists →
        dependenciesCheck (RecordKeywords.dependencyLists lists)
          (view check (RecordKeywords.dependencyLists lists)) part = []) ∧
      (∀ properties, keywords.properties = some properties →
        propertiesCheck (view check (.obj properties)) part = []) ∧
      ∀ names, keywords.required = some names → requiredCheck (Json.strings names) part = [] := by
  rw [view_eq_nil_of_sublist names_members (by decide) (by decide), RecordKeywords.members,
    List.forall_mem_append, List.forall_mem_append, List.forall_mem_append, List.forall_mem_append,
    List.forall_mem_append, forall_mem_optional, forall_mem_optional, forall_mem_optional,
    forall_mem_optional, forall_mem_optional, List.forall_mem_singleton]
  constructor
  · rintro ⟨further, -, lists, declared, wanted, typed⟩
    exact ⟨typeCheck_eq_nil.mp typed, further, lists, declared, wanted⟩
  · rintro ⟨typed, further, lists, declared, wanted⟩
    exact ⟨further, fun _ _ => rfl, lists, declared, wanted, typeCheck_eq_nil.mpr typed⟩

theorem siblingNames_properties :
    siblingNames keywords.members "properties" = Entries.names keywords.declared := by
  have found : Entries.get? keywords.members "properties" = keywords.properties.map .obj := by
    rw [RecordKeywords.members, Entries.get?_append, Entries.get?_append, Entries.get?_append,
      Entries.get?_append, Entries.get?_append, get?_optional, get?_optional, get?_optional,
      get?_optional, get?_optional]
    cases keywords.properties <;> rfl
  unfold siblingNames RecordKeywords.declared
  rw [found]
  cases keywords.properties <;> rfl

theorem isAdditional_members {name : String} :
    isAdditional keywords.members name = true ↔ name ∉ Entries.names keywords.declared := by
  have unpatterned : Entries.get? keywords.members "patternProperties" = none := by
    refine Entries.get?_eq_none_iff.mpr fun present => ?_
    have among := names_members.subset present
    revert among
    decide
  rw [isAdditional_iff unpatterned, siblingNames_properties]

section Parts

variable {members : Entries Json}

theorem declared_pass :
    (∀ properties, keywords.properties = some properties →
      propertiesCheck (view check (.obj properties)) (.obj members) = []) ↔
    ∀ name value, (name, value) ∈ members → ∀ schema,
      Entries.get? keywords.declared name = some schema →
      (view check schema).schema value = [] := by
  unfold RecordKeywords.declared
  cases keywords.properties with
  | none => simp [Entries.get?]
  | some properties =>
    simp only [Option.some.injEq, forall_eq', Option.getD_some]
    exact propertiesCheck_eq_nil

theorem further_pass :
    (∀ schema, keywords.additional = some schema →
      additionalPropertiesCheck keywords.members schema (view check schema) (.obj members) = []) ↔
    ∀ name value, (name, value) ∈ members → name ∉ Entries.names keywords.declared →
      ∀ schema, keywords.additional = some schema → (view check schema).schema value = [] := by
  simp only [additionalPropertiesCheck_eq_nil, isAdditional_members]
  exact ⟨fun each name value present other schema given => each schema given name value present other,
    fun each schema given name value present other => each name value present other schema given⟩

theorem wanted_pass :
    (∀ names, keywords.required = some names →
      requiredCheck (Json.strings names) (.obj members) = []) ↔
    keywords.wanted ⊆ Entries.names members := by
  unfold RecordKeywords.wanted
  cases keywords.required with
  | none => simp
  | some names =>
    simp only [Option.some.injEq, forall_eq', Option.getD_some, requiredCheck, texts_strings]
    exact requiredFailures_eq_nil

theorem between_pass {view : Entries (List String) → View} :
    (∀ lists, keywords.dependencies = some lists →
      dependenciesCheck (RecordKeywords.dependencyLists lists) (view lists) (.obj members) = []) ↔
    ∀ key names, (key, names) ∈ keywords.between → key ∈ Entries.names members →
      names ⊆ Entries.names members := by
  unfold RecordKeywords.between
  cases keywords.dependencies with
  | none => simp
  | some lists =>
    simp only [Option.some.injEq, forall_eq', Option.getD_some]
    exact dependenciesCheck_eq_nil

end Parts

/-- A record schema asks for an object with the wanted members, whose declared members pass their
schemas, whose others pass the schema for further ones, and whose dependencies hold. -/
theorem view_record_eq_nil :
    (view check (.obj keywords.members)).schema part = [] ↔
      ∃ members, part = .obj members ∧
        (∀ name value, (name, value) ∈ members → ∀ schema,
          Entries.get? keywords.declared name = some schema →
          (view check schema).schema value = []) ∧
        (∀ name value, (name, value) ∈ members → name ∉ Entries.names keywords.declared →
          ∀ schema, keywords.additional = some schema → (view check schema).schema value = []) ∧
        keywords.wanted ⊆ Entries.names members ∧
        ∀ key names, (key, names) ∈ keywords.between → key ∈ Entries.names members →
          names ⊆ Entries.names members := by
  rw [view_members, admits_object]
  constructor
  · rintro ⟨⟨members, rfl⟩, further, lists, declared, wanted⟩
    exact ⟨members, rfl, declared_pass.mp declared, further_pass.mp further,
      wanted_pass.mp wanted, between_pass.mp lists⟩
  · rintro ⟨members, rfl, declared, further, wanted, lists⟩
    exact ⟨⟨members, rfl⟩, further_pass.mpr further, between_pass.mpr lists,
      declared_pass.mpr declared, wanted_pass.mpr wanted⟩

end Record

/-! ## Schemas without references -/

theorem Plain.ne_arr {keys : SyntheticKeys} {references : Bool} {schema : Json}
    (plain : Plain keys references schema) (items : List Json) : schema ≠ .arr items := by
  cases plain <;> exact Json.noConfusion

theorem Plain.ne_null {keys : SyntheticKeys} {references : Bool} {schema : Json}
    (plain : Plain keys references schema) : schema ≠ .null := by
  cases plain <;> exact Json.noConfusion

/-- The items of a list schema are no list of places. -/
theorem single_of_plain {keys : SyntheticKeys} {references : Bool} {items : Option Json}
    (inner : ∀ schema, items = some schema → Plain keys references schema) (places : List Json) :
    items ≠ some (.arr places) :=
  fun given => (inner _ given).ne_arr places rfl

/-- Without references a schema asks the same whatever references stand for. -/
theorem Plain.view_agree {keys : SyntheticKeys} {references : Bool} {schema : Json}
    (plain : Plain keys references schema) (closed : references = false) {other : String → Check}
    (part : Json) :
    (view check schema).schema part = [] ↔ (view other schema).schema part = [] := by
  induction plain generalizing part with
  | anything => exact Iff.rfl
  | empty => rw [view_empty, view_empty]
  | scalar => rw [view_scalar_eq_nil, view_scalar_eq_nil]
  | constant => rw [view_constant_eq_nil, view_constant_eq_nil]
  | enumeration => rw [view_enumeration_eq_nil, view_enumeration_eq_nil]
  | array inner ih =>
    rw [view_array_eq_nil (single_of_plain inner), view_array_eq_nil (single_of_plain inner)]
    refine exists_congr fun values => and_congr_right fun _ => and_congr_right fun _ =>
      and_congr_right fun _ => forall₂_congr fun schema given => forall₂_congr fun value _ => ?_
    exact ih schema given closed value
  | tuple _ ih =>
    rw [view_tuple_eq_nil, view_tuple_eq_nil]
    refine exists_congr fun values => and_congr_right fun _ => forall₃_congr
      fun place schema value => forall₂_congr fun own _ => ?_
    exact ih schema (List.mem_of_getElem? own) closed value
  | @record _ keywords _ _ _ declared further =>
    rw [view_record_eq_nil, view_record_eq_nil]
    refine exists_congr fun members => and_congr_right fun _ => and_congr ?_ (and_congr_left fun _ => ?_)
    · refine forall₃_congr fun name value _ => forall₂_congr fun schema found => ?_
      exact declared _ (Entries.mem_of_get?_eq_some found) closed value
    · refine forall₃_congr fun name value _ => forall₃_congr fun _ schema given => ?_
      by_cases forbidden : schema = .bool false
      · -- The schema `false` is not in the fragment but refers to nothing either.
        rw [forbidden]
        exact Iff.rfl
      · exact further schema given forbidden closed value
  | anyOf _ ih =>
    rw [view_anyOf_eq_nil, view_anyOf_eq_nil]
    refine exists_congr fun schema => and_congr_right fun present => ?_
    exact ih schema present closed part
  -- What is negated has no references in any case.
  | negation _ ih => rw [view_negation_eq_nil, view_negation_eq_nil, ne_eq, ne_eq, ih rfl]
  | reference => cases closed

end Schema

end SchemaSampler
