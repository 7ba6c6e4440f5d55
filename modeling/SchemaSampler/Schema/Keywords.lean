import SchemaSampler.Binary64.Arithmetic
import SchemaSampler.Binary64.Decimal
import SchemaSampler.Json.Basic
import SchemaSampler.Text.Unprintable

/-!
# The keywords of a schema object

Reading goes through the members of an object in the order of their names. A `null` counts as
an absent keyword, except for `const`; unknown keywords are skipped; the first keyword of a wrong
type ends the reading. Inner schemas stay JSON values.

`Keywords.toJson` writes the present keywords again.
-/

namespace SchemaSampler

/-- The keywords that have a meaning, in the order in which a list of them is read. -/
inductive Keyword where
  | type | properties | required | additionalProperties | patternProperties | dependencies
  | items | minItems | maxItems | uniqueItems | minimum | maximum | exclusiveMinimum
  | exclusiveMaximum | multipleOf | enumeration | constant | reference | definitions
  | anyOf | oneOf | allOf | negation | pattern | faker | generator
deriving DecidableEq, Repr

namespace Keyword

def all : List Keyword :=
  [type, properties, required, additionalProperties, patternProperties, dependencies, items,
    minItems, maxItems, uniqueItems, minimum, maximum, exclusiveMinimum, exclusiveMaximum,
    multipleOf, enumeration, constant, reference, definitions, anyOf, oneOf, allOf, negation,
    pattern, faker, generator]

def name : Keyword → String
  | type => "type"
  | properties => "properties"
  | required => "required"
  | additionalProperties => "additionalProperties"
  | patternProperties => "patternProperties"
  | dependencies => "dependencies"
  | items => "items"
  | minItems => "minItems"
  | maxItems => "maxItems"
  | uniqueItems => "uniqueItems"
  | minimum => "minimum"
  | maximum => "maximum"
  | exclusiveMinimum => "exclusiveMinimum"
  | exclusiveMaximum => "exclusiveMaximum"
  | multipleOf => "multipleOf"
  | enumeration => "enum"
  | constant => "const"
  | reference => "$ref"
  | definitions => "definitions"
  | anyOf => "anyOf"
  | oneOf => "oneOf"
  | allOf => "allOf"
  | negation => "not"
  | pattern => "pattern"
  | faker => "faker"
  | generator => "generator"

def ofName? (text : String) : Option Keyword := all.find? fun keyword => keyword.name == text

end Keyword

/-- The `type` keyword: one type name or a list of them. -/
inductive TypeSpec where
  | single (name : String)
  | many (names : List String)
deriving DecidableEq, Repr

/-- An exclusive bound: a flag on the inclusive one, or a limit of its own. -/
inductive ExclusiveBound where
  | flag (exclusive : Bool)
  | limit (value : Binary64)
deriving DecidableEq, Repr

structure Keywords where
  type : Option TypeSpec := none
  properties : Option (Entries Json) := none
  required : Option (List String) := none
  additionalProperties : Option Json := none
  patternProperties : Option (Entries Json) := none
  dependencies : Option (Entries Json) := none
  items : Option Json := none
  minItems : Option Nat := none
  maxItems : Option Nat := none
  uniqueItems : Option Bool := none
  minimum : Option Binary64 := none
  maximum : Option Binary64 := none
  exclusiveMinimum : Option ExclusiveBound := none
  exclusiveMaximum : Option ExclusiveBound := none
  multipleOf : Option Binary64 := none
  enumeration : Option (List Json) := none
  constant : Option Json := none
  reference : Option String := none
  definitions : Option (Entries Json) := none
  anyOf : Option (List Json) := none
  oneOf : Option (List Json) := none
  allOf : Option (List Json) := none
  negation : Option Json := none
  pattern : Option String := none
  faker : Option String := none
  generator : Option String := none

/-! ## Faults -/

/-- What a keyword wants as its value. -/
inductive Wanted where
  | map | sequence | text | natural | number | boolean | keywords
deriving DecidableEq, Repr

def Wanted.description : Wanted → String
  | map => "a map"
  | sequence => "a sequence"
  | text => "a string"
  | natural => "u64"
  | number => "f64"
  | boolean => "a boolean"
  | keywords => "struct RawSchema"

/-- Why the keywords of a schema cannot be read. -/
inductive KeywordFault where
  | wrongType (found : Json) (wanted : Wanted)
  | negative (value : Int)
  | noTypeSpec
  | noExclusiveBound
  | tooMany (count : Nat)

/-- A character in a quotation; what does not show is given by its code. -/
def quotedChar (c : Char) : List Char :=
  if c == '"' then ['\\', '"']
  else if c == '\\' then ['\\', '\\']
  else if c == '\n' then ['\\', 'n']
  else if c == '\r' then ['\\', 'r']
  else if c == '\t' then ['\\', 't']
  else if c.toNat == 0 then ['\\', '0']
  else if Unprintable.contains c then
    ['\\', 'u', '\x7b'] ++ Nat.toDigits 16 c.toNat ++ ['\x7d']
  else [c]

/-- A value as a fault describes it. -/
def describeFound : Json → String
  | .null => "null"
  | .bool value => "boolean `" ++ (if value then "true" else "false") ++ "`"
  | .int value => "integer `" ++ toString value ++ "`"
  | .float value => "floating point `" ++ value.jsonText ++ "`"
  | .str text => "string \"" ++ String.ofList (text.toList.flatMap quotedChar) ++ "\""
  | .arr _ => "sequence"
  | .obj _ => "map"

def KeywordFault.message : KeywordFault → String
  | wrongType found wanted =>
    "invalid type: " ++ describeFound found ++ ", expected " ++ wanted.description
  | negative value => "invalid value: integer `" ++ toString value ++ "`, expected u64"
  | noTypeSpec => "data did not match any variant of untagged enum TypeSpec"
  | noExclusiveBound => "data did not match any variant of untagged enum ExclusiveBound"
  | tooMany count =>
    "invalid length " ++ toString count ++ ", expected fewer elements in array"

/-! ## Reading -/

namespace Keywords

def readMap : Json → Except KeywordFault (Entries Json)
  | .obj members => .ok members
  | found => .error (.wrongType found .map)

def readSequence : Json → Except KeywordFault (List Json)
  | .arr items => .ok items
  | found => .error (.wrongType found .sequence)

def readText : Json → Except KeywordFault String
  | .str text => .ok text
  | found => .error (.wrongType found .text)

def readTexts (value : Json) : Except KeywordFault (List String) := do
  (← readSequence value).mapM readText

def readNatural : Json → Except KeywordFault Nat
  | .int value => if value < 0 then .error (.negative value) else .ok value.toNat
  | found => .error (.wrongType found .natural)

def readNumber : Json → Except KeywordFault Binary64
  | .int value => .ok (Binary64.ofInt value)
  | .float value => .ok value
  | found => .error (.wrongType found .number)

def readBoolean : Json → Except KeywordFault Bool
  | .bool value => .ok value
  | found => .error (.wrongType found .boolean)

def readType : Json → Except KeywordFault TypeSpec
  | .str name => .ok (.single name)
  | value =>
    match readTexts value with
    | .ok names => .ok (.many names)
    | .error _ => .error .noTypeSpec

def readExclusive : Json → Except KeywordFault ExclusiveBound
  | .bool exclusive => .ok (.flag exclusive)
  | value =>
    match readNumber value with
    | .ok limit => .ok (.limit limit)
    | .error _ => .error .noExclusiveBound

/-- Sets a keyword to a value other than `null`. -/
def set (keywords : Keywords) (value : Json) : Keyword → Except KeywordFault Keywords
  | .type => do pure { keywords with type := some (← readType value) }
  | .properties => do pure { keywords with properties := some (← readMap value) }
  | .required => do pure { keywords with required := some (← readTexts value) }
  | .additionalProperties => pure { keywords with additionalProperties := some value }
  | .patternProperties => do pure { keywords with patternProperties := some (← readMap value) }
  | .dependencies => do pure { keywords with dependencies := some (← readMap value) }
  | .items => pure { keywords with items := some value }
  | .minItems => do pure { keywords with minItems := some (← readNatural value) }
  | .maxItems => do pure { keywords with maxItems := some (← readNatural value) }
  | .uniqueItems => do pure { keywords with uniqueItems := some (← readBoolean value) }
  | .minimum => do pure { keywords with minimum := some (← readNumber value) }
  | .maximum => do pure { keywords with maximum := some (← readNumber value) }
  | .exclusiveMinimum => do
    pure { keywords with exclusiveMinimum := some (← readExclusive value) }
  | .exclusiveMaximum => do
    pure { keywords with exclusiveMaximum := some (← readExclusive value) }
  | .multipleOf => do pure { keywords with multipleOf := some (← readNumber value) }
  | .enumeration => do pure { keywords with enumeration := some (← readSequence value) }
  | .constant => pure { keywords with constant := some value }
  | .reference => do pure { keywords with reference := some (← readText value) }
  | .definitions => do pure { keywords with definitions := some (← readMap value) }
  | .anyOf => do pure { keywords with anyOf := some (← readSequence value) }
  | .oneOf => do pure { keywords with oneOf := some (← readSequence value) }
  | .allOf => do pure { keywords with allOf := some (← readSequence value) }
  | .negation => pure { keywords with negation := some value }
  | .pattern => do pure { keywords with pattern := some (← readText value) }
  | .faker => do pure { keywords with faker := some (← readText value) }
  | .generator => do pure { keywords with generator := some (← readText value) }

/-- Takes a keyword's value in; `null` leaves every keyword but `const` absent. -/
def put (keywords : Keywords) (keyword : Keyword) : Json → Except KeywordFault Keywords
  | .null =>
    if keyword = .constant then .ok { keywords with constant := some .null } else .ok keywords
  | value => keywords.set value keyword

/-- Takes the members of an object in, one after the other. -/
def putMembers : Keywords → List (String × Json) → Except KeywordFault Keywords
  | keywords, [] => .ok keywords
  | keywords, (name, value) :: rest =>
    match Keyword.ofName? name with
    | none => putMembers keywords rest
    | some keyword =>
      match keywords.put keyword value with
      | .ok keywords => putMembers keywords rest
      | .error fault => .error fault

/-- The keywords of a schema object, or of a list of values in the order of the keywords. -/
def read : Json → Except KeywordFault Keywords
  | .obj members => putMembers {} members
  | .arr items => do
    let keywords ← putMembers {} ((Keyword.all.map Keyword.name).zip items)
    if items.length ≤ Keyword.all.length then pure keywords
    else .error (.tooMany items.length)
  | found => .error (.wrongType found .keywords)

end Keywords

/-! ## Writing -/

def TypeSpec.toJson : TypeSpec → Json
  | single name => .str name
  | many names => Json.strings names

def ExclusiveBound.toJson : ExclusiveBound → Json
  | flag exclusive => .bool exclusive
  | limit value => .float value

namespace Keywords

def naturalJson (value : Nat) : Json := .int value

/-- The value of a keyword as JSON. -/
def get? (keywords : Keywords) : Keyword → Option Json
  | .type => keywords.type.map TypeSpec.toJson
  | .properties => keywords.properties.map .obj
  | .required => keywords.required.map Json.strings
  | .additionalProperties => keywords.additionalProperties
  | .patternProperties => keywords.patternProperties.map .obj
  | .dependencies => keywords.dependencies.map .obj
  | .items => keywords.items
  | .minItems => keywords.minItems.map naturalJson
  | .maxItems => keywords.maxItems.map naturalJson
  | .uniqueItems => keywords.uniqueItems.map .bool
  | .minimum => keywords.minimum.map .float
  | .maximum => keywords.maximum.map .float
  | .exclusiveMinimum => keywords.exclusiveMinimum.map ExclusiveBound.toJson
  | .exclusiveMaximum => keywords.exclusiveMaximum.map ExclusiveBound.toJson
  | .multipleOf => keywords.multipleOf.map .float
  | .enumeration => keywords.enumeration.map .arr
  | .constant => keywords.constant
  | .reference => keywords.reference.map .str
  | .definitions => keywords.definitions.map .obj
  | .anyOf => keywords.anyOf.map .arr
  | .oneOf => keywords.oneOf.map .arr
  | .allOf => keywords.allOf.map .arr
  | .negation => keywords.negation
  | .pattern => keywords.pattern.map .str
  | .faker => keywords.faker.map .str
  | .generator => keywords.generator.map .str

/-- The object of the present keywords. -/
def toJson (keywords : Keywords) : Json :=
  Json.object (Keyword.all.filterMap fun keyword =>
    (keywords.get? keyword).map fun value => (keyword.name, value))

end Keywords

end SchemaSampler
