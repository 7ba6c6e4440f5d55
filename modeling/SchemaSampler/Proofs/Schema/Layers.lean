import SchemaSampler.Schema.Classify

/-!
# Two classifications side by side

One level of classification reads the keywords of a schema and classifies the inner schemas in
them. It looks at the definitions nowhere, and at the schema itself only to blame it for a failure.
So a relation between results that survives sequences, and holds between failures for the same
reason that blame the two schemas themselves, passes from the inner schemas to the schemas, whatever
their definitions.

Results:
1. `Node.LayerRelation`: what such a relation has to satisfy.
2. `Node.LayerRelation.classifyKeywords`: it passes from the inner schemas to the keywords.
-/

namespace SchemaSampler

namespace Keywords

/-- The keywords with other definitions. -/
def withDefinitions (keywords : Keywords) (definitions : Option (Entries Json)) : Keywords :=
  { keywords with definitions }

/-- Every schema in the keywords that classification goes into has the property. -/
structure InnerSchemas (Holds : Json → Prop) (keywords : Keywords) : Prop where
  properties : ∀ entries, keywords.properties = some entries → ∀ entry ∈ entries, Holds entry.2
  patterns : ∀ entries, keywords.patternProperties = some entries →
    ∀ entry ∈ entries, Holds entry.2
  additional : ∀ schema, keywords.additionalProperties = some schema → Holds schema
  items : ∀ schema, keywords.items = some schema → (∀ places, schema ≠ .arr places) → Holds schema
  places : ∀ places, keywords.items = some (.arr places) → ∀ place ∈ places, Holds place
  anyOf : ∀ members, keywords.anyOf = some members → ∀ member ∈ members, Holds member
  oneOf : ∀ members, keywords.oneOf = some members → ∀ member ∈ members, Holds member
  allOf : ∀ members, keywords.allOf = some members → ∀ member ∈ members, Holds member
  negation : ∀ negated, keywords.negation = some negated → Holds negated

theorem innerSchemas_true (keywords : Keywords) : keywords.InnerSchemas fun _ => True := by
  constructor <;> intros <;> trivial

end Keywords

namespace Node

/-- A relation between results of classification that passes through a level of it, between two
schemas. -/
structure LayerRelation (R : (α : Type) → Classified α → Classified α → Prop)
    (source other : Json) : Prop where
  success : ∀ {α : Type} (value : α), R α (.ok value) (.ok value)
  failure : ∀ {α : Type} (reason : Reason), R α (fail reason source) (fail reason other)
  bind : ∀ {α β : Type} {result other : Classified α} {next otherNext : α → Classified β},
    R α result other → (∀ value, R β (next value) (otherNext value)) →
      R β (result >>= next) (other >>= otherNext)

namespace LayerRelation

variable {R : (α : Type) → Classified α → Classified α → Prop} {source other : Json}
  (relation : LayerRelation R source other)

include relation

theorem mapM {α β : Type} {f g : β → Classified α} {items : List β}
    (each : ∀ item ∈ items, R α (f item) (g item)) : R _ (items.mapM f) (items.mapM g) := by
  induction items with
  | nil => exact relation.success _
  | cons item rest ih =>
    rw [List.mapM_cons, List.mapM_cons]
    refine relation.bind (each item List.mem_cons_self) fun image => ?_
    exact relation.bind (ih fun other later => each other (List.mem_cons_of_mem _ later))
      fun images => relation.success _

theorem entriesMapM {α β : Type} {f g : β → Classified α} {entries : Entries β}
    (each : ∀ entry ∈ entries, R α (f entry.2) (g entry.2)) :
    R _ (Entries.mapM f entries) (Entries.mapM g entries) := by
  induction entries with
  | nil => exact relation.success _
  | cons entry rest ih =>
    refine relation.bind (each entry List.mem_cons_self) fun image => ?_
    exact relation.bind (ih fun other later => each other (List.mem_cons_of_mem _ later))
      fun images => relation.success _

theorem enumerated {kind : EnumKind} {values : List Json} :
    R _ (Node.enumerated kind values source) (Node.enumerated kind values other) := by
  unfold Node.enumerated
  split
  · exact relation.failure _
  · exact relation.success _

variable {Holds : Json → Prop} {inner further : Json → Classified Node}
  (each : ∀ schema, Holds schema → R _ (inner schema) (further schema)) {keywords : Keywords}
  (schemas : keywords.InnerSchemas Holds) (definitions : Option (Entries Json))

include each

theorem classifyEntries {entries : Option (Entries Json)}
    (holds : ∀ listed, entries = some listed → ∀ entry ∈ listed, Holds entry.2) :
    R _ (Node.classifyEntries inner entries) (Node.classifyEntries further entries) := by
  refine relation.entriesMapM fun entry present => each _ ?_
  cases entries with
  | none => cases present
  | some listed => exact holds listed rfl entry present

theorem classifyAdditional {schema : Option Json}
    (holds : ∀ stated, schema = some stated → Holds stated) :
    R _ (Node.classifyAdditional inner schema) (Node.classifyAdditional further schema) := by
  unfold Node.classifyAdditional
  split
  · exact relation.success _
  · exact relation.success _
  · exact relation.success _
  · exact relation.bind (each _ (holds _ rfl)) fun _ => relation.success _

theorem classifyMembers (keyword : Keyword) {members : List Json}
    (holds : ∀ member ∈ members, Holds member) :
    R _ (Node.classifyMembers inner keyword source members)
      (Node.classifyMembers further keyword other members) := by
  unfold Node.classifyMembers
  split
  · exact relation.failure _
  · exact relation.mapM fun member listed => each member (holds member listed)

include schemas

theorem classifyArray : R _ (Node.classifyArray inner keywords)
    (Node.classifyArray further (keywords.withDefinitions definitions)) := by
  unfold Node.classifyArray
  dsimp only [Keywords.withDefinitions]
  split
  next places stated =>
    exact relation.bind
      (relation.mapM fun place listed => each place (schemas.places places stated place listed))
      fun _ => relation.success _
  next items single stated =>
    exact relation.bind (each items (schemas.items items stated fun places => single places))
      fun _ => relation.success _
  next => exact relation.success _

theorem classifyObject : R _ (Node.classifyObject inner keywords)
    (Node.classifyObject further (keywords.withDefinitions definitions)) := by
  refine relation.bind (relation.classifyEntries each schemas.properties) fun properties => ?_
  refine relation.bind (relation.classifyEntries each schemas.patterns) fun patterns => ?_
  exact relation.bind (relation.classifyAdditional each schemas.additional)
    fun additional => relation.success _

theorem classifyTyped (name : String) : R _ (Node.classifyTyped inner keywords source name)
    (Node.classifyTyped further (keywords.withDefinitions definitions) other name) := by
  unfold Node.classifyTyped
  dsimp only [Keywords.withDefinitions]
  split
  · exact relation.enumerated
  · split
    case h_6 => exact relation.classifyArray each schemas definitions
    case h_7 => exact relation.classifyObject each schemas definitions
    case h_8 => exact relation.failure _
    all_goals exact relation.success _

theorem classifyTypes (names : List String) : R _ (Node.classifyTypes inner keywords source names)
    (Node.classifyTypes further (keywords.withDefinitions definitions) other names) := by
  have typed := relation.classifyTyped each schemas definitions
  unfold Node.classifyTypes
  dsimp only [Keywords.withDefinitions]
  split
  · exact relation.failure _
  · exact typed _
  · split
    · exact relation.enumerated
    · exact relation.bind (relation.mapM fun name _ => typed name) fun _ => relation.success _

theorem classifyUntyped : R _ (Node.classifyUntyped inner keywords source)
    (Node.classifyUntyped further (keywords.withDefinitions definitions) other) := by
  have members (keyword : Keyword) (listed : List Json)
      (holds : ∀ member ∈ listed, Holds member) :=
    relation.classifyMembers each keyword holds
  unfold Node.classifyUntyped
  dsimp only [Keywords.withDefinitions]
  cases keywords.enumeration with
  | some values => exact relation.enumerated
  | none =>
  cases anyOf : keywords.anyOf with
  | some listed =>
    exact relation.bind (members .anyOf listed (schemas.anyOf listed anyOf))
      fun _ => relation.success _
  | none =>
  cases oneOf : keywords.oneOf with
  | some listed =>
    exact relation.bind (members .oneOf listed (schemas.oneOf listed oneOf))
      fun _ => relation.success _
  | none =>
  cases allOf : keywords.allOf with
  | some listed =>
    exact relation.bind (members .allOf listed (schemas.allOf listed allOf))
      fun _ => relation.success _
  | none =>
  cases negation : keywords.negation with
  | some negated =>
    exact relation.bind (each negated (schemas.negation negated negation))
      fun _ => relation.success _
  | none =>
    show R _
      (if speaksOfMembers keywords then Node.classifyObject inner keywords
        else if keywords.items.isSome then Node.classifyArray inner keywords else .ok .anything)
      (if speaksOfMembers keywords then
          Node.classifyObject further (keywords.withDefinitions definitions)
        else if keywords.items.isSome then
          Node.classifyArray further (keywords.withDefinitions definitions) else .ok .anything)
    cases speaksOfMembers keywords with
    | true => exact relation.classifyObject each schemas definitions
    | false =>
      cases keywords.items.isSome with
      | true => exact relation.classifyArray each schemas definitions
      | false => exact relation.success _

/-- Related inner schemas make related schemas. -/
theorem classifyKeywords : R _ (Node.classifyKeywords inner keywords source)
    (Node.classifyKeywords further (keywords.withDefinitions definitions) other) := by
  unfold Node.classifyKeywords
  dsimp only [Keywords.withDefinitions]
  cases keywords.generator with
  | some name => exact relation.success _
  | none =>
  cases keywords.reference with
  | some pointer => exact relation.success _
  | none =>
  cases keywords.constant with
  | some value => exact relation.success _
  | none =>
  cases keywords.type with
  | none => exact relation.classifyUntyped each schemas definitions
  | some spec =>
    cases spec with
    | single name => exact relation.classifyTyped each schemas definitions name
    | many names => exact relation.classifyTypes each schemas definitions names

end LayerRelation

end Node

end SchemaSampler
