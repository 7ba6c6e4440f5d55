import SchemaSampler.Pattern.Matching
import SchemaSampler.Text.Pointers
import SchemaSampler.Validity.Equality
import SchemaSampler.Validity.Failure

/-!
# Checking instances

A check maps an instance to its failures. Every keyword of a schema gives a check made of the
checks of its inner schemas; `Schema.view` finds these for a whole schema by recursion on it.
What a reference checks is a parameter of that recursion, and `Schema.failures` supplies it: a
reference leads to the part of the root that its pointer names, and the fuel bounds how many
references may be followed inside each other.
-/

namespace SchemaSampler

/-- The failures of an instance. -/
abbrev Check := Json → List Failure

namespace Check

def passes (check : Check) (instanceValue : Json) : Bool := (check instanceValue).isEmpty

/-- A failure of the instance as a whole, unless a condition holds. -/
def require (condition : Bool) (part : Json) (cause : Cause) : List Failure :=
  if condition then [] else [{ part, cause }]

/-- Every check in a list. -/
def all (checks : List Check) : Check := fun part => checks.flatMap fun check => check part

def member (check : Check) (name : String) (value : Json) : List Failure :=
  (check value).map (Failure.under name)

/-- Checks items with their numbers, from `start` on. -/
def items (checkAt : Nat → Check) : Nat → List Json → List Failure
  | _, [] => []
  | start, item :: rest =>
    (checkAt start item).map (Failure.under (toString start)) ++ items checkAt (start + 1) rest

end Check

/-- The checks that a JSON value gives as a schema, as a list of schemas, and as a map of
schemas. -/
structure View where
  schema : Check
  items : List Check := []
  members : Entries Check := []

namespace Schema

/-! ## Reading keywords -/

/-- A number of items or characters, which may be written as a whole float. -/
def natural? : Json → Option Nat
  | .int value => if value < 0 then none else some value.toNat
  | .float value =>
    if value.isWhole && !(value.lt .zero) then some (value.absUnits / Binary64.oneUnits) else none
  | _ => none

def texts (value : Json) : List String :=
  match value with
  | .arr items => items.filterMap fun
    | .str text => some text
    | _ => none
  | _ => []

/-- The types that a `type` keyword lists, in the order of their names. -/
def typesOf (value : Json) : List TypeName :=
  let names := match value with
    | .str name => [name]
    | value => texts value
  TypeName.all.filter fun type => names.contains type.name

/-- The text of a pattern with the character classes of JSON Schema patterns, which are ASCII. -/
def expandClasses : List Char → List Char
  | '\\' :: 'd' :: rest => "[0-9]".toList ++ expandClasses rest
  | '\\' :: 'D' :: rest => "[^0-9]".toList ++ expandClasses rest
  | '\\' :: 'w' :: rest => "[A-Za-z0-9_]".toList ++ expandClasses rest
  | '\\' :: 'W' :: rest => "[^A-Za-z0-9_]".toList ++ expandClasses rest
  | '\\' :: 's' :: rest => ('[' :: blanks) ++ expandClasses rest
  | '\\' :: 'S' :: rest => ('[' :: '^' :: blanks) ++ expandClasses rest
  | '\\' :: 'c' :: c :: rest =>
    if c.isAlpha then Char.ofNat (c.toNat % 32) :: expandClasses rest
    else '\\' :: 'c' :: expandClasses (c :: rest)
  | '\\' :: c :: rest => '\\' :: c :: expandClasses rest
  | c :: rest => c :: expandClasses rest
  | [] => []
where
  blanks : List Char :=
    [' ', '\t', '\n', '\r', Char.ofNat 11, Char.ofNat 12, Char.ofNat 0x2003, Char.ofNat 0xFEFF,
      Char.ofNat 0x2029, Char.ofNat 0xA0, ']']

/-- The pattern of a `pattern` keyword. -/
def patternOf? (text : String) : Option Pattern :=
  Pattern.read? (String.ofList (expandClasses text.toList))

/-- The pattern of a `patternProperties` name matches a key. -/
def nameMatches (pattern : String) (key : String) : Bool :=
  ((Pattern.read? pattern).map fun pattern => pattern.isMatch key).getD false

/-! ## Keywords -/

/-- Compares the exact values of an instance and a limit; other instances pass. -/
def compareUnits (holds : Int → Int → Bool) (limit : Json) (cause : Json → Cause) : Check :=
  fun part =>
    match part.units?, limit.units? with
    | some value, some bound => Check.require (holds value bound) part (cause limit)
    | _, _ => []

/-- The exact value divides into whole steps; a fractional step allows the quotient to exceed a
whole number by less than one epsilon. -/
def isStepMultiple (value step : Binary64) : Bool :=
  let divides := value.units % step.units == 0
  if step.isWhole then value.isWhole && divides
  else
    let quotient := value.div step
    if quotient.isFinite then quotient.fract.lt .epsilon else divides

def multipleCheck (step : Json) : Check := fun part =>
  match part.toFloat?, step.toFloat? with
  | some value, some step => Check.require (isStepMultiple value step) part (.noMultiple step)
  | _, _ => []

/-- The size that a measure takes of a value. -/
def measured? : Measure → Json → Option Nat
  | .items, .arr items => some items.length
  | .characters, .str text => some text.length
  | .properties, .obj members => some members.length
  | _, _ => none

def atLeast (measure : Measure) (limit : Json) : Check := fun part =>
  match measured? measure part, natural? limit with
  | some size, some limit => Check.require (limit ≤ size) part (.tooFew measure limit)
  | _, _ => []

def atMost (measure : Measure) (limit : Json) : Check := fun part =>
  match measured? measure part, natural? limit with
  | some size, some limit => Check.require (size ≤ limit) part (.tooMany measure limit)
  | _, _ => []

def typeCheck (value : Json) : Check := fun part =>
  let types := typesOf value
  Check.require (types.any fun type => type.admits part) part (.wrongType types)

/-- The value is the constant; a number may miss it by less than one epsilon. -/
def isConstant (value constant : Json) : Bool :=
  match value.toFloat?, constant.toFloat? with
  | some x, some y => (y.sub x).abs.lt .epsilon
  | _, _ => Json.sameValue value constant

def constantCheck (constant : Json) : Check := fun part =>
  Check.require (isConstant part constant) part (.notConstant constant)

def enumCheck (values : Json) : Check := fun part =>
  match values with
  | .arr values => Check.require (values.any (Json.sameValue part)) part (.notListed values)
  | _ => []

def uniqueCheck (wanted : Json) : Check := fun part =>
  match wanted, part with
  | .bool true, .arr items => Check.require (Json.distinctValues items) part .repeated
  | _, _ => []

def patternCheck (pattern : Json) : Check := fun part =>
  match pattern, part with
  | .str pattern, .str text =>
    Check.require (((patternOf? pattern).map fun pattern => pattern.isMatch text).getD false) part
      (.noMatch pattern)
  | _, _ => []

def requiredFailures (names : List String) (members : Entries Json) : List Failure :=
  names.flatMap fun name => Check.require (members.has name) (.obj members) (.missing name)

def requiredCheck (names : Json) : Check
  | .obj members => requiredFailures (texts names) members
  | _ => []

def propertiesCheck (view : View) : Check
  | .obj members => members.flatMap fun (name, value) =>
    match view.members.get? name with
    | some check => check.member name value
    | none => []
  | _ => []

def patternPropertiesCheck (view : View) : Check
  | .obj members => view.members.flatMap fun (pattern, check) =>
    (members.filter fun member => nameMatches pattern member.1).flatMap fun (name, value) =>
      check.member name value
  | _ => []

/-- The names in a keyword of the same schema. -/
def siblingNames (keywords : Entries Json) (keyword : String) : List String :=
  match keywords.get? keyword with
  | some (.obj members) => Entries.names members
  | _ => []

/-- The key is neither declared nor matched by a declared pattern. -/
def isAdditional (keywords : Entries Json) (key : String) : Bool :=
  !(siblingNames keywords "properties").contains key &&
    !(siblingNames keywords "patternProperties").any fun pattern => nameMatches pattern key

/-- Without declared names and patterns, any first member is against a `false`. -/
def additionalPropertiesCheck (keywords : Entries Json) (value : Json) (view : View) : Check
  | .obj members =>
    let extra := members.filter fun member => isAdditional keywords member.1
    match value with
    | .bool true => []
    | .bool false =>
      if keywords.has "properties" || keywords.has "patternProperties" then
        Check.require extra.isEmpty (.obj members) (.unexpectedMembers (Entries.names extra))
      else
        match extra with
        | (_, first) :: _ => [{ part := first, cause := .falseSchema }]
        | [] => []
    | _ => extra.flatMap fun (name, value) => view.schema.member name value
  | _ => []

def propertyNamesCheck (view : View) : Check
  | .obj members => (Entries.names members).flatMap fun name => view.schema (.str name)
  | _ => []

/-- A dependency on names wants them present; one on a schema checks the whole instance. -/
def dependenciesCheck (value : Json) (view : View) : Check
  | .obj members =>
    match value with
    | .obj dependencies => dependencies.flatMap fun (name, dependency) =>
      if Entries.has members name then
        match dependency with
        | .arr _ => requiredFailures (texts dependency) members
        | _ => ((view.members.get? name).map fun check => check (.obj members)).getD []
      else []
    | _ => []
  | _ => []

/-- One schema for all items, or a schema for each place. -/
def itemsCheck (value : Json) (view : View) : Check
  | .arr items =>
    match value with
    | .arr _ => Check.items (fun place => (view.items[place]?).getD fun _ => []) 0 items
    | _ => Check.items (fun _ => view.schema) 0 items
  | _ => []

/-- Items beyond those that have a schema of their own. -/
def additionalItemsCheck (keywords : Entries Json) (value : Json) (view : View) : Check
  | .arr items =>
    match keywords.get? "items" with
    | some (.arr places) =>
      let extra := items.drop places.length
      match value with
      | .bool false => Check.require extra.isEmpty (.arr items) (.unexpectedItems extra)
      | _ => Check.items (fun _ => view.schema) places.length extra
    | _ => []
  | _ => []

def containsCheck (view : View) : Check
  | .arr items => Check.require (items.any view.schema.passes) (.arr items) .nothingContained
  | _ => []

def anyOfCheck (view : View) : Check := fun part =>
  Check.require (view.items.any fun check => check.passes part) part .noAlternative

def oneOfCheck (view : View) : Check := fun part =>
  match view.items.filter fun check => check.passes part with
  | [] => [{ part, cause := .noExclusiveAlternative }]
  | [_] => []
  | _ => [{ part, cause := .severalAlternatives }]

def notCheck (source : Json) (view : View) : Check := fun part =>
  Check.require (!view.schema.passes part) part (.forbidden source)

/-- The schema of `then` or `else`, whichever the condition asks for. -/
def conditionalCheck (condition : View) (views : Entries View) : Check := fun part =>
  let branch := if condition.schema.passes part then "then" else "else"
  ((views.get? branch).map fun view => view.schema part).getD []

/-- The check of a keyword; unknown ones check nothing. -/
def keywordCheck (keywords : Entries Json) (views : Entries View) (name : String) (value : Json)
    (view : View) : Check :=
  match name with
  | "type" => typeCheck value
  | "enum" => enumCheck value
  | "const" => constantCheck value
  | "minimum" => compareUnits (fun x bound => bound ≤ x) value .belowMinimum
  | "maximum" => compareUnits (fun x bound => x ≤ bound) value .aboveMaximum
  | "exclusiveMinimum" => compareUnits (fun x bound => bound < x) value .notAbove
  | "exclusiveMaximum" => compareUnits (fun x bound => x < bound) value .notBelow
  | "multipleOf" => multipleCheck value
  | "minLength" => atLeast .characters value
  | "maxLength" => atMost .characters value
  | "pattern" => patternCheck value
  | "minItems" => atLeast .items value
  | "maxItems" => atMost .items value
  | "uniqueItems" => uniqueCheck value
  | "items" => itemsCheck value view
  | "additionalItems" => additionalItemsCheck keywords value view
  | "contains" => containsCheck view
  | "minProperties" => atLeast .properties value
  | "maxProperties" => atMost .properties value
  | "required" => requiredCheck value
  | "properties" => propertiesCheck view
  | "patternProperties" => patternPropertiesCheck view
  | "additionalProperties" => additionalPropertiesCheck keywords value view
  | "propertyNames" => propertyNamesCheck view
  | "dependencies" => dependenciesCheck value view
  | "allOf" => Check.all view.items
  | "anyOf" => anyOfCheck view
  | "oneOf" => oneOfCheck view
  | "not" => notCheck value view
  | "if" => conditionalCheck view views
  | _ => fun _ => []

/-- A reference hides the other keywords of its schema. -/
def objectCheck (follow : String → Check) (keywords : Entries Json) (views : Entries View) :
    Check := fun part =>
  match keywords.get? "$ref" with
  | some (.str pointer) => follow pointer part
  | _ => keywords.flatMap fun (name, value) =>
    match views.get? name with
    | some view => keywordCheck keywords views name value view part
    | none => []

/-! ## Schemas -/

mutual
/-- The checks of a value and its parts; `follow` checks what a reference leads to. -/
def view (follow : String → Check) : Json → View
  | .bool true => ⟨fun _ => [], [], []⟩
  | .bool false => ⟨fun part => [{ part, cause := .falseSchema }], [], []⟩
  | .arr items => ⟨fun _ => [], itemViews follow items, []⟩
  | .obj members =>
    let views := memberViews follow members
    ⟨objectCheck follow members views, [], views.map fun (name, view) => (name, view.schema)⟩
  | _ => ⟨fun _ => [], [], []⟩

def itemViews (follow : String → Check) : List Json → List Check
  | [] => []
  | item :: rest => (view follow item).schema :: itemViews follow rest

def memberViews (follow : String → Check) : List (String × Json) → Entries View
  | [] => []
  | (name, value) :: rest => (name, view follow value) :: memberViews follow rest
end

/-! ## References -/

/-- The bytes of a text in which `%` and two digits stand for a byte. -/
def percentBytes : List Char → List UInt8
  | [] => []
  | '%' :: a :: b :: rest =>
    match Digits.hexValue? a, Digits.hexValue? b with
    | some high, some low => UInt8.ofNat (16 * high + low) :: percentBytes rest
    | _, _ => '%'.toString.toUTF8.toList ++ percentBytes (a :: b :: rest)
  | c :: rest => c.toString.toUTF8.toList ++ percentBytes rest
termination_by chars => chars.length

/-- Percent escapes give the bytes of a text; what is no text stays as it is. -/
def percentDecode (text : List Char) : List Char :=
  if text.contains '%' then
    match String.fromUTF8? (ByteArray.mk (percentBytes text).toArray) with
    | some decoded => decoded.toList
    | none => text
  else text

/-- The number of an item, written without leading zeros. -/
def itemNumber? (segment : List Char) : Option Nat :=
  if segment.isEmpty || (1 < segment.length && segment.head? == some '0') ||
      !segment.all Char.isDigit then none
  else some (Digits.number 0 segment)

/-- The part of a value that a path leads to. -/
def partAt : List String → Json → Option Json
  | [], value => some value
  | segment :: rest, .obj members => (Entries.get? members segment).bind (partAt rest)
  | segment :: rest, .arr items =>
    ((itemNumber? segment.toList).bind fun place => items[place]?).bind (partAt rest)
  | _ :: _, _ => none

/-- The part of the root that a reference names: its fragment is a pointer into the root. -/
def resolve (root : Json) (reference : String) : Option Json :=
  match reference.toList with
  | [] => some root
  | '#' :: fragment =>
    match Pointer.segments (percentDecode fragment) with
    | [[]] => some root
    | [] :: segments => partAt (segments.map Pointer.segmentName) root
    | _ => none
  | _ => none

/-- The failures of an instance against a part of the root; at most `fuel` references are
followed inside each other. -/
def failures (root : Json) : (fuel : Nat) → Json → Check
  | 0, schema => (view (fun pointer part => [{ part, cause := .unresolved pointer }]) schema).schema
  | fuel + 1, schema =>
    (view (fun pointer part =>
      match resolve root pointer with
      | some target => failures root fuel target part
      | none => [{ part, cause := .unresolved pointer }]) schema).schema

end Schema

end SchemaSampler
