import SchemaSampler.Proofs.Compile.Failures
import SchemaSampler.Proofs.Schema.Normalized

/-!
# The place of a failure

Classification goes from a schema into the schemas that its keywords hold, and it passes on the
first failure that it meets. So what is blamed is the schema itself or a schema at some depth inside
it, and that schema fails for the same reason when it is classified alone. The definitions of a
document are further schemas, next to the root; only when they are no object, they are blamed without
being one.

Results:
1. `Keyword.schemas`, `Json.innerSchemas`, `Json.Subschema`: where schemas stand in a schema.
2. `Node.classifyLayer_error`: a failure is the schema's own or that of a schema directly inside.
3. `Node.classify_error`: what is blamed fails alone, for the same reason.
4. `Document.faults_located`: the same of documents.
-/

namespace SchemaSampler

/-! ## Schemas in a schema -/

/-- The schemas in the value of a keyword: the entries of a map, the items of a list, or the value
itself. -/
def Keyword.schemas : Keyword → Json → List Json
  | _, .null => []
  | properties, .obj entries => Entries.values entries
  | patternProperties, .obj entries => Entries.values entries
  | items, .arr places => places
  | anyOf, .arr members => members
  | oneOf, .arr members => members
  | allOf, .arr members => members
  | items, schema => [schema]
  | additionalProperties, schema => [schema]
  | negation, schema => [schema]
  | _, _ => []

namespace Json

/-- The schemas directly inside a schema. -/
def innerSchemas : Json → List Json
  | obj members => members.flatMap fun (name, value) =>
      match Keyword.ofName? name with
      | some keyword => keyword.schemas value
      | none => []
  | _ => []

/-- The schema itself, the schemas directly inside it, those inside them and so on. -/
def Subschema (part schema : Json) : Prop :=
  Relation.ReflTransGen (fun inner outer => inner ∈ innerSchemas outer) part schema

theorem mem_innerSchemas {part : Json} {members : Entries Json} :
    part ∈ innerSchemas (obj members) ↔
      ∃ keyword value, (Keyword.name keyword, value) ∈ members ∧ part ∈ keyword.schemas value := by
  rw [innerSchemas, List.mem_flatMap]
  constructor
  · rintro ⟨⟨name, value⟩, member, listed⟩
    dsimp only at listed
    cases found : Keyword.ofName? name with
    | none =>
      rw [found] at listed
      cases listed
    | some keyword =>
      rw [found] at listed
      cases Keyword.name_of_ofName? found
      exact ⟨keyword, value, member, listed⟩
  · rintro ⟨keyword, value, member, listed⟩
    refine ⟨(keyword.name, value), member, ?_⟩
    dsimp only
    rwa [Schema.ofName?_name]

end Json

namespace Keyword

theorem schemas_written (keyword : Keyword) (value : Json) :
    keyword.schemas (keyword.written value) = keyword.schemas value := by
  cases keyword <;> cases value <;> rfl

theorem mem_schemas_of_counts {value : Json} (counts : additionalProperties.counts value = true) :
    value ∈ additionalProperties.schemas value ∧ value ∈ negation.schemas value := by
  cases value with
  | null => cases counts
  | _ => exact ⟨List.mem_singleton.mpr rfl, List.mem_singleton.mpr rfl⟩

theorem mem_schemas_items {value : Json} (counts : items.counts value = true)
    (single : ∀ places, value ≠ .arr places) : value ∈ items.schemas value := by
  cases value with
  | null => cases counts
  | arr places => exact absurd rfl (single places)
  | _ => exact List.mem_singleton.mpr rfl

theorem depth_of_mem_schemas {keyword : Keyword} {value part : Json}
    (listed : part ∈ keyword.schemas value) : part.depth ≤ value.depth := by
  have entry {entries : Entries Json} (listed : part ∈ Entries.values entries) :
      part.depth ≤ (Json.obj entries).depth := by
    obtain ⟨entry, member, rfl⟩ := List.mem_map.mp listed
    exact (Json.depth_lt_of_member member).le
  have item {items : List Json} (listed : part ∈ items) : part.depth ≤ (Json.arr items).depth :=
    (Json.depth_lt_of_item listed).le
  have single {schema : Json} (listed : part ∈ [schema]) : part.depth ≤ schema.depth := by
    rw [List.mem_singleton.mp listed]
  unfold schemas at listed
  split at listed
  all_goals first
    | exact entry listed
    | exact item listed
    | exact single listed
    | cases listed

end Keyword

theorem Json.depth_of_mem_innerSchemas {part schema : Json} (inside : part ∈ schema.innerSchemas) :
    part.depth < schema.depth := by
  cases schema with
  | obj members =>
    obtain ⟨keyword, value, member, listed⟩ := mem_innerSchemas.mp inside
    exact (Keyword.depth_of_mem_schemas listed).trans_lt (depth_lt_of_member member)
  | _ => cases inside

namespace Keywords

/-- The schemas that classification goes into stand directly inside the schema. -/
theorem innerSchemas_of_read {members : Entries Json} {keywords : Keywords}
    (read : Keywords.read (.obj members) = .ok keywords) :
    keywords.InnerSchemas (· ∈ (Json.obj members).innerSchemas) := by
  have original (keyword : Keyword) {value : Json} (present : keywords.get? keyword = some value) :
      keyword.counts value = true ∧
        ∀ part ∈ keyword.schemas value, part ∈ (Json.obj members).innerSchemas := by
    obtain ⟨original, member, counts, rfl⟩ := mem_stated.mp (mem_stated_of_read read present)
    rw [Keyword.counts_written, Keyword.schemas_written]
    exact ⟨counts, fun part listed => Json.mem_innerSchemas.mpr ⟨keyword, original, member, listed⟩⟩
  have map (keyword : Keyword) {entries : Entries Json}
      (present : keywords.get? keyword = some (.obj entries))
      (all : keyword.schemas (.obj entries) = Entries.values entries) :
      ∀ entry ∈ entries, entry.2 ∈ (Json.obj members).innerSchemas := fun entry listed =>
    (original keyword present).2 entry.2 (all ▸ List.mem_map_of_mem listed)
  have list (keyword : Keyword) {items : List Json}
      (present : keywords.get? keyword = some (.arr items))
      (all : keyword.schemas (.arr items) = items) :
      ∀ item ∈ items, item ∈ (Json.obj members).innerSchemas := fun item listed =>
    (original keyword present).2 item (all.symm ▸ listed)
  exact {
    properties := fun _ stated => map .properties (congrArg (Option.map Json.obj) stated) rfl
    patterns := fun _ stated => map .patternProperties (congrArg (Option.map Json.obj) stated) rfl
    additional := fun schema stated =>
      have ⟨counts, inside⟩ := original .additionalProperties stated
      inside schema (Keyword.mem_schemas_of_counts counts).1
    items := fun schema stated single =>
      have ⟨counts, inside⟩ := original .items stated
      inside schema (Keyword.mem_schemas_items counts single)
    places := fun _ stated => list .items stated rfl
    anyOf := fun _ stated => list .anyOf (congrArg (Option.map Json.arr) stated) rfl
    oneOf := fun _ stated => list .oneOf (congrArg (Option.map Json.arr) stated) rfl
    allOf := fun _ stated => list .allOf (congrArg (Option.map Json.arr) stated) rfl
    negation := fun schema stated =>
      have ⟨counts, inside⟩ := original .negation stated
      inside schema (Keyword.mem_schemas_of_counts counts).2 }

end Keywords

/-! ## Classification -/

namespace Node

variable {schema : Json} {fault : Unsupported}

/-- The schema itself is to blame, or a schema directly inside it has failed. -/
def OwnOrInner (inner : Json → Classified Node) (schema : Json) {α : Type}
    (result : Classified α) : Prop :=
  ∀ fault, result = .error fault →
    fault.node = schema ∨ ∃ part ∈ schema.innerSchemas, inner part = .error fault

theorem ownOrInner_layerRelation (inner : Json → Classified Node) (schema : Json) :
    LayerRelation (fun _ result _ => OwnOrInner inner schema result) schema schema where
  success _ := nofun
  failure _ := fun _ failed => .inl (congrArg Unsupported.node (Except.error.inj failed)).symm
  bind first second := fun fault failed => by
    rcases Except.bind_eq_error.mp failed with early | ⟨value, -, later⟩
    · exact first fault early
    · exact second value fault later

theorem classifyLayer_error {inner : Json → Classified Node}
    (failed : classifyLayer inner schema = .error fault) :
    fault.node = schema ∨ ∃ part ∈ schema.innerSchemas, inner part = .error fault := by
  have own {reason : Reason} {source : Json}
      (failed : (fail reason source : Classified Node) = .error fault) : fault.node = source :=
    (congrArg Unsupported.node (Except.error.inj failed)).symm
  unfold classifyLayer at failed
  split at failed
  · cases failed
  · exact .inl (own failed)
  next members =>
    split at failed
    next keywords read =>
      -- The relation says nothing about a second classification, so any will do for it.
      have passes := @LayerRelation.classifyKeywords _ _ _
        (ownOrInner_layerRelation inner (.obj members)) (· ∈ (Json.obj members).innerSchemas) inner
        inner
      exact passes (fun part inside fault failed => .inr ⟨part, inside, failed⟩)
        (Keywords.innerSchemas_of_read read) keywords.definitions fault failed
    next => exact .inl (own failed)
  · exact .inl (own failed)

/-- One step towards the cause: the schema itself, or a schema directly inside that fails alone. -/
theorem classify_error_cases (failed : classify schema = .error fault) :
    fault.node = schema ∨ ∃ part ∈ schema.innerSchemas, classify part = .error fault := by
  rcases classifyLayer_error failed with own | ⟨part, inside, deeper⟩
  · exact .inl own
  · have shallow := Json.depth_of_mem_innerSchemas inside
    refine .inr ⟨part, inside, ?_⟩
    rwa [classify, classifyWithin_congr (Nat.lt_succ_self _) shallow]

/-- What is blamed stands in the schema and fails alone, for the same reason. -/
theorem classify_error {schema : Json} (failed : classify schema = .error fault) :
    fault.node.Subschema schema ∧ classify fault.node = .error fault := by
  rcases classify_error_cases failed with own | ⟨part, inside, deeper⟩
  · rw [own]
    exact ⟨.refl, failed⟩
  · obtain ⟨below, alone⟩ := classify_error deeper
    exact ⟨below.tail inside, alone⟩
termination_by schema.depth
decreasing_by exact Json.depth_of_mem_innerSchemas inside

end Node

/-! ## Documents -/

namespace Document

variable {schema : Json} {fault : Unsupported}

theorem get?_of_definitionsOf {value : Json} (given : definitionsOf schema = value)
    (single : value.isObject = false) : schema.get? "definitions" = some value := by
  unfold definitionsOf at given
  cases found : schema.get? "definitions" with
  | none =>
    rw [found] at given
    cases given
    cases single
  | some stated =>
    rw [found] at given
    exact congrArg some given

/-- A document fails for its root, for definitions that are no object, or for one of them. -/
theorem parse_eq_error (failed : parse schema = .error fault) :
    Node.classify schema = .error fault ∨
      (∃ definitions, definitionsOf schema = .obj definitions ∧
        ∃ entry ∈ definitions, Node.classify entry.2 = .error fault) ∨
      (fault.node.isObject = false ∧ definitionsOf schema = fault.node ∧
        fault.reason = .definitionsNotObject) := by
  rcases Except.bind_eq_error.mp failed with root | ⟨_, -, failed⟩
  · exact .inl root
  · split at failed
    next definitions given =>
      rcases Except.bind_eq_error.mp failed with inner | ⟨_, -, absent⟩
      · exact .inr (.inl ⟨definitions, given, Except.entriesMapM_eq_error inner⟩)
      · cases absent
    next other single =>
      cases failed
      refine .inr (.inr ⟨?_, rfl, rfl⟩)
      cases given : definitionsOf schema with
      | obj definitions => exact absurd given (single definitions)
      | _ => rfl

/-- For every JSON value, classification gives a node, or it blames the value itself or a value inside
it at the place of a schema, and that value alone fails for the same reason and is blamed for it. A
document is parsed, or what is blamed stands in the root or in one of its definitions in this way,
or it is the value of `definitions`, which is no object. -/
theorem faults_located (schema : Json) :
    ((∃ node, Node.classify schema = .ok node) ∨
      ∃ fault, Node.classify schema = .error fault ∧ fault.node.Subschema schema ∧
        Node.classify fault.node = .error fault) ∧
    ((∃ document, parse schema = .ok document) ∨
      ∃ fault, parse schema = .error fault ∧
        ((Node.classify fault.node = .error fault ∧
            (fault.node.Subschema schema ∨
              ∃ definitions, definitionsOf schema = .obj definitions ∧
                ∃ entry ∈ definitions, fault.node.Subschema entry.2)) ∨
          (fault.reason = .definitionsNotObject ∧ fault.node.isObject = false ∧
            schema.get? "definitions" = some fault.node))) := by
  refine ⟨?_, ?_⟩
  · cases classified : Node.classify schema with
    | ok node => exact .inl ⟨node, rfl⟩
    | error fault => exact .inr ⟨fault, rfl, Node.classify_error classified⟩
  · cases parsed : parse schema with
    | ok document => exact .inl ⟨document, rfl⟩
    | error fault =>
      refine .inr ⟨fault, rfl, ?_⟩
      rcases parse_eq_error parsed with
        root | ⟨definitions, given, entry, listed, failed⟩ | ⟨single, given, reason⟩
      · obtain ⟨below, alone⟩ := Node.classify_error root
        exact .inl ⟨alone, .inl below⟩
      · obtain ⟨below, alone⟩ := Node.classify_error failed
        exact .inl ⟨alone, .inr ⟨definitions, given, entry, listed, below⟩⟩
      · exact .inr ⟨reason, single, get?_of_definitionsOf given single⟩

/-- A combination without members is to blame, not the list of which it is the items' schema. -/
example : Node.classify (.obj [("items", .obj [("anyOf", .arr [])])]) =
    .error ⟨.noAlternatives .anyOf, .obj [("anyOf", .arr [])]⟩ := rfl

end Document

end SchemaSampler
