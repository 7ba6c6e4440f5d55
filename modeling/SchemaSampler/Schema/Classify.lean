import SchemaSampler.Schema.Node
import SchemaSampler.Json.Printer

/-!
# Classification

`Node.classify` finds the one shape of a schema, or says why there is none and at which value.
A keyword decides before another in this order: `generator`, `$ref`, `const`, `type`; without a
type `enum`, `anyOf`, `oneOf`, `allOf`, `not`, the object keywords, `items`.

Inner schemas are classified by the same rule; `classifyLayer` is one level of it.
-/

namespace SchemaSampler

/-- Why a value has no shape. -/
inductive Reason where
  | falseSchema
  | notSchema
  | illTyped (fault : KeywordFault)
  | noTypes
  | unknownType (name : String)
  | noAlternatives (keyword : Keyword)
  | emptyEnum
  | definitionsNotObject
  | noPropertySubset

def Reason.text : Reason → String
  | falseSchema => "the `false` schema admits no value"
  | notSchema => "a schema must be an object or a boolean"
  | illTyped fault => fault.message
  | noTypes => "`type` lists no types"
  | unknownType name => "unknown type `" ++ name ++ "`"
  | noAlternatives keyword => "`" ++ keyword.name ++ "` must list at least one schema"
  | emptyEnum => "`enum` has no value of the declared type"
  | definitionsNotObject => "`definitions` must be an object"
  | noPropertySubset => "no property subset satisfies `dependencies`"

/-- A schema without a shape, and the value to blame. -/
structure Unsupported where
  reason : Reason
  node : Json

def Unsupported.message (fault : Unsupported) : String :=
  "unsupported schema (" ++ fault.reason.text ++ "): " ++ fault.node.compact

/-- The type names of JSON Schema. -/
inductive TypeName where
  | null | boolean | integer | number | string | array | object
deriving DecidableEq, Repr

namespace TypeName

def all : List TypeName := [array, boolean, integer, null, number, object, string]

def name : TypeName → String
  | null => "null"
  | boolean => "boolean"
  | integer => "integer"
  | number => "number"
  | string => "string"
  | array => "array"
  | object => "object"

def ofName? (text : String) : Option TypeName := all.find? fun type => type.name == text

/-- The value has the type; a float without fractional part is an integer too. -/
def admits : TypeName → Json → Bool
  | null, .null => true
  | boolean, .bool _ => true
  | integer, .int _ => true
  | integer, .float value => value.isWhole
  | number, .int _ => true
  | number, .float _ => true
  | string, .str _ => true
  | array, .arr _ => true
  | object, .obj _ => true
  | _, _ => false

end TypeName

namespace Node

abbrev Classified (α : Type) := Except Unsupported α

def fail {α : Type} (reason : Reason) (node : Json) : Classified α := .error ⟨reason, node⟩

/-- The value has the type of the given name; an unknown name has no values. -/
def hasType (name : String) (value : Json) : Bool :=
  match TypeName.ofName? name with
  | some type => type.admits value
  | none => false

def numericBounds (keywords : Keywords) : NumericBounds :=
  ⟨keywords.minimum, keywords.maximum, keywords.exclusiveMinimum, keywords.exclusiveMaximum,
    keywords.multipleOf⟩

/-- An enumeration needs a value. -/
def enumerated (kind : EnumKind) (values : List Json) (source : Json) : Classified Node :=
  if values.isEmpty then fail .emptyEnum source else .ok (.enumeration kind values)

def enumKind : Option TypeName → EnumKind
  | some .integer => .integer
  | some .number => .number
  | some .string => .text
  | _ => .untyped

section Layer

/-! Below, `inner` classifies inner schemas. -/

variable (inner : Json → Classified Node)

def classifyEntries (entries : Option (Entries Json)) : Classified (List (String × Node)) :=
  Entries.mapM inner (entries.getD [])

def listBounds (keywords : Keywords) : ListBounds :=
  ⟨keywords.minItems, keywords.maxItems, keywords.uniqueItems.getD false⟩

def classifyArray (keywords : Keywords) : Classified Node :=
  match keywords.items with
  | some (.arr items) => do pure (.tuple (← items.mapM inner))
  | some items => do pure (.list (← inner items) (listBounds keywords))
  | none => pure (.list .anything (listBounds keywords))

def classifyAdditional : Option Json → Classified (Additional Node)
  | none => pure .absent
  | some (.bool false) => pure .forbidden
  | some (.bool true) => pure .anything
  | some schema => do pure (.schema (← inner schema))

/-- The names in the list form of a dependency; members other than strings are dropped. -/
def dependencyNames : Json → Option (List String)
  | .arr items => some (items.filterMap fun item =>
      match item with
      | .str label => some label
      | _ => none)
  | _ => none

def listDependencies (dependencies : Entries Json) : Entries (List String) :=
  dependencies.filterMap fun (key, dependency) =>
    (dependencyNames dependency).map fun names => (key, names)

def schemaDependencyNames (dependencies : Entries Json) : List String :=
  dependencies.filterMap fun (key, dependency) =>
    if (dependencyNames dependency).isNone then some key else none

def classifyObject (keywords : Keywords) : Classified Node := do
  let properties ← classifyEntries inner keywords.properties
  let patterns ← classifyEntries inner keywords.patternProperties
  let additional ← classifyAdditional inner keywords.additionalProperties
  let dependencies := keywords.dependencies.getD []
  pure (.object {
    properties, patterns, additional
    required := keywords.required.getD []
    dependencies := listDependencies dependencies
    schemaDependencies := schemaDependencyNames dependencies })

/-- A schema with one type. -/
def classifyTyped (keywords : Keywords) (source : Json) (name : String) : Classified Node :=
  match keywords.enumeration with
  | some values =>
    enumerated (enumKind (TypeName.ofName? name)) (values.filter (hasType name)) source
  | none =>
    match TypeName.ofName? name with
    | some .null => .ok .null
    | some .boolean => .ok .boolean
    | some .integer => .ok (.integer (numericBounds keywords))
    | some .number => .ok (.number (numericBounds keywords))
    | some .string => .ok (.text ⟨keywords.pattern, keywords.faker⟩)
    | some .array => classifyArray inner keywords
    | some .object => classifyObject inner keywords
    | none => fail (.unknownType name) source

def classifyTypes (keywords : Keywords) (source : Json) : List String → Classified Node
  | [] => fail .noTypes source
  | [name] => classifyTyped inner keywords source name
  | names =>
    match keywords.enumeration with
    | some values =>
      enumerated .untyped (values.filter fun value => names.any fun name => hasType name value)
        source
    | none => do pure (.anyOf (← names.mapM (classifyTyped inner keywords source)))

/-- The members of a combination, of which there has to be one. -/
def classifyMembers (keyword : Keyword) (source : Json) (members : List Json) :
    Classified (List Node) :=
  if members.isEmpty then fail (.noAlternatives keyword) source else members.mapM inner

/-- Some keyword speaks of object members. -/
def speaksOfMembers (keywords : Keywords) : Bool :=
  keywords.properties.isSome || keywords.patternProperties.isSome ||
    keywords.additionalProperties.isSome || keywords.required.isSome ||
    keywords.dependencies.isSome

def classifyUntyped (keywords : Keywords) (source : Json) : Classified Node :=
  if let some values := keywords.enumeration then enumerated .untyped values source
  else if let some members := keywords.anyOf then do
    pure (.anyOf (← classifyMembers inner .anyOf source members))
  else if let some members := keywords.oneOf then do
    pure (.oneOf (← classifyMembers inner .oneOf source members))
  else if let some members := keywords.allOf then do
    pure (.allOf (← classifyMembers inner .allOf source members))
  else if let some negated := keywords.negation then do
    pure (.negation (← inner negated) negated)
  else if speaksOfMembers keywords then classifyObject inner keywords
  else if keywords.items.isSome then classifyArray inner keywords
  else .ok .anything

def classifyKeywords (keywords : Keywords) (source : Json) : Classified Node :=
  if let some name := keywords.generator then .ok (.custom name)
  else if let some pointer := keywords.reference then .ok (.reference pointer)
  else if let some value := keywords.constant then .ok (.constant value)
  else
    match keywords.type with
    | some (.single name) => classifyTyped inner keywords source name
    | some (.many names) => classifyTypes inner keywords source names
    | none => classifyUntyped inner keywords source

/-- One level of classification. -/
def classifyLayer : Json → Classified Node
  | .bool true => .ok .anything
  | .bool false => fail .falseSchema (.bool false)
  | .obj members =>
    match Keywords.read (.obj members) with
    | .ok keywords => classifyKeywords inner keywords (.obj members)
    | .error fault => fail (.illTyped fault) (.obj members)
  | value => fail .notSchema value

end Layer

/-- Classification of schemas up to a nesting depth. -/
def classifyWithin : (depth : Nat) → Json → Classified Node
  | 0, value => fail .notSchema value
  | depth + 1, value => classifyLayer (classifyWithin depth) value

/-- The shape of a schema. -/
def classify (value : Json) : Classified Node := classifyWithin (value.depth + 1) value

end Node

end SchemaSampler
