import SchemaSampler.Validity.Check

/-!
# Schemas that a validator accepts

`Schema.isAccepted` is the shape that every schema and all its inner schemas must have before
instances can be checked against it: each known keyword has a value of its kind, and patterns
are regular expressions. It is the content of the draft-07 meta-schema.
-/

namespace SchemaSampler

namespace Schema

/-! ## Kinds of values -/

def isText : Json → Bool
  | .str _ => true
  | _ => false

def isBoolean : Json → Bool
  | .bool _ => true
  | _ => false

def isNumber (value : Json) : Bool := value.units?.isSome

def isList : Json → Bool
  | .arr _ => true
  | _ => false

def isNatural (value : Json) : Bool := (natural? value).isSome

def isPositive (value : Json) : Bool :=
  match value.units? with
  | some units => 0 < units
  | none => false

/-- A list of different strings. -/
def isNameList : Json → Bool
  | .arr items => items.all isText && Json.distinctValues items
  | _ => false

def isTypeName : Json → Bool
  | .str name => (TypeName.ofName? name).isSome
  | _ => false

/-- A type name, or a list of one or more different ones. -/
def isType : Json → Bool
  | .arr items => !items.isEmpty && items.all isTypeName && Json.distinctValues items
  | value => isTypeName value

def isPattern : Json → Bool
  | .str text => (patternOf? text).isSome
  | _ => false

/-- A reference holds neither blanks nor backslashes. -/
def isReference : Json → Bool
  | .str text => text.toList.all fun c => c != '\\' && !Pattern.isSpace c
  | _ => false

def namesArePatterns (members : Entries Json) : Bool :=
  (Entries.names members).all fun name =>
    (patternOf? name).isSome && (Pattern.read? name).isSome

/-! ## Schemas -/

/-- Whether a value is accepted as a schema, as a list of schemas, and as a map of schemas. -/
structure Acceptance where
  schema : Bool := false
  list : Bool := false
  map : Bool := false
  /-- Every value of the map is a schema or a list of names. -/
  dependencies : Bool := false

/-- The value of a keyword has its kind; unknown keywords may have any value. -/
def keywordAccepted (name : String) (value : Json) (inner : Acceptance) : Bool :=
  match name with
  | "$ref" => isReference value
  | "$id" => isReference value
  | "$schema" | "$comment" | "title" | "description" | "format" | "contentMediaType"
  | "contentEncoding" => isText value
  | "readOnly" | "uniqueItems" => isBoolean value
  | "examples" | "enum" => isList value
  | "multipleOf" => isPositive value
  | "maximum" | "exclusiveMaximum" | "minimum" | "exclusiveMinimum" => isNumber value
  | "maxLength" | "minLength" | "maxItems" | "minItems" | "maxProperties" | "minProperties" =>
    isNatural value
  | "pattern" => isPattern value
  | "required" => isNameList value
  | "type" => isType value
  | "additionalItems" | "contains" | "additionalProperties" | "propertyNames" | "if" | "then"
  | "else" | "not" => inner.schema
  | "items" => inner.schema || inner.list
  | "allOf" | "anyOf" | "oneOf" => inner.list
  | "definitions" | "properties" => inner.map
  | "patternProperties" =>
    match value with
    | .obj members => inner.map && namesArePatterns members
    | _ => false
  | "dependencies" => inner.dependencies
  | _ => true

mutual
def acceptance : Json → Acceptance
  | .bool _ => { schema := true }
  | .arr items => { list := !items.isEmpty && allAccepted items }
  | .obj members =>
    let inner := memberAcceptances members
    { schema := inner.all fun (name, value, inner) => keywordAccepted name value inner
      map := inner.all fun (_, _, inner) => inner.schema
      dependencies := inner.all fun (_, value, inner) => inner.schema || isNameList value }
  | _ => {}

def allAccepted : List Json → Bool
  | [] => true
  | item :: rest => (acceptance item).schema && allAccepted rest

/-- The members with what their values are accepted as. -/
def memberAcceptances : List (String × Json) → List (String × Json × Acceptance)
  | [] => []
  | (name, value) :: rest => (name, value, acceptance value) :: memberAcceptances rest
end

def isAccepted (schema : Json) : Bool := (acceptance schema).schema

end Schema

/-- A schema that instances can be checked against. -/
structure Validator where
  schema : Json

namespace Validator

/-- Nothing when the schema is not accepted. -/
def ofSchema? (schema : Json) : Option Validator :=
  if Schema.isAccepted schema then some ⟨schema⟩ else none

mutual
/-- The number of values in a value. -/
def nodes : Json → Nat
  | .arr items => itemNodes items + 1
  | .obj members => memberNodes members + 1
  | _ => 1

def itemNodes : List Json → Nat
  | [] => 0
  | item :: rest => nodes item + itemNodes rest

def memberNodes : List (String × Json) → Nat
  | [] => 0
  | (_, value) :: rest => nodes value + memberNodes rest
end

/-- References that may be followed inside each other: each part of the schema at each depth of
the instance. -/
def fuel (schema part : Json) : Nat := nodes schema * (part.depth + 2)

def failures (validator : Validator) (part : Json) : List Failure :=
  Schema.failures validator.schema (fuel validator.schema part) validator.schema part

def isValid (validator : Validator) (part : Json) : Bool := (validator.failures part).isEmpty

/-- The texts of the failures. -/
def errors (validator : Validator) (part : Json) : List String :=
  (validator.failures part).map Failure.text

end Validator

end SchemaSampler
