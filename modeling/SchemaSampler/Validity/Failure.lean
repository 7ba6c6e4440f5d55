import SchemaSampler.Json.Printer
import SchemaSampler.Schema.Classify

/-!
# Validation failures

A failure names the part of the instance that is not valid, the path to it, and the cause. Its
text is the path and a sentence about the part.
-/

namespace SchemaSampler

/-- Which quantity of a value a size limit speaks of. -/
inductive Measure where
  | items | characters | properties
deriving DecidableEq, Repr

def Measure.noun : Measure → Nat → String
  | items, count => if count == 1 then "item" else "items"
  | characters, count => if count == 1 then "character" else "characters"
  | properties, count => if count == 1 then "property" else "properties"

/-- Why a value is not valid. -/
inductive Cause where
  | falseSchema
  | wrongType (expected : List TypeName)
  | belowMinimum (limit : Json)
  | aboveMaximum (limit : Json)
  | notAbove (limit : Json)
  | notBelow (limit : Json)
  | noMultiple (step : Binary64)
  | notListed (values : List Json)
  | notConstant (value : Json)
  | missing (name : String)
  | unexpectedMembers (names : List String)
  | unexpectedItems (items : List Json)
  | tooFew (measure : Measure) (limit : Nat)
  | tooMany (measure : Measure) (limit : Nat)
  | repeated
  | noMatch (pattern : String)
  | noAlternative
  | noExclusiveAlternative
  | severalAlternatives
  | forbidden (schema : Json)
  | nothingContained
  | unresolved (pointer : String)

structure Failure where
  /-- The member names and item numbers that lead to the part. -/
  path : List String := []
  part : Json
  cause : Cause

namespace Failure

/-- The failure seen from an array or object around the instance. -/
def under (segment : String) (failure : Failure) : Failure :=
  { failure with path := segment :: failure.path }

def quoted (name : String) : String := "\"" ++ name ++ "\""

/-- A list of texts and the verb that agrees with their number. -/
def wereUnexpected (texts : List String) : String :=
  "(" ++ ", ".intercalate texts ++ (if texts.length == 1 then " was" else " were") ++
    " unexpected)"

def sizeText (adjectives : String × String) (part : String) (measure : Measure) (limit : Nat) :
    String :=
  part ++ (match measure with
    | .characters => " is " ++ adjectives.1
    | _ => " has " ++ adjectives.2) ++ " than " ++ toString limit ++ " " ++ measure.noun limit

def causeText (part : String) : Cause → String
  | .falseSchema => "False schema does not allow " ++ part
  | .wrongType [expected] => part ++ " is not of type " ++ quoted expected.name
  | .wrongType expected =>
    part ++ " is not of types " ++ ", ".intercalate (expected.map fun type => quoted type.name)
  | .belowMinimum limit => part ++ " is less than the minimum of " ++ limit.compact
  | .aboveMaximum limit => part ++ " is greater than the maximum of " ++ limit.compact
  | .notAbove limit => part ++ " is less than or equal to the minimum of " ++ limit.compact
  | .notBelow limit => part ++ " is greater than or equal to the maximum of " ++ limit.compact
  | .noMultiple step => part ++ " is not a multiple of " ++ step.plainText
  | .notListed values => part ++ " is not one of " ++ (Json.arr values).compact
  | .notConstant value => value.compact ++ " was expected"
  | .missing name => Json.quote name ++ " is a required property"
  | .unexpectedMembers names =>
    "Additional properties are not allowed " ++
      wereUnexpected (names.map fun name => "'" ++ name ++ "'")
  | .unexpectedItems items =>
    "Additional items are not allowed " ++ wereUnexpected (items.map Json.compact)
  | .tooFew measure limit => sizeText ("shorter", "less") part measure limit
  | .tooMany measure limit => sizeText ("longer", "more") part measure limit
  | .repeated => part ++ " has non-unique elements"
  | .noMatch pattern => part ++ " does not match \"" ++ pattern ++ "\""
  | .noAlternative =>
    part ++ " is not valid under any of the schemas listed in the 'anyOf' keyword"
  | .noExclusiveAlternative =>
    part ++ " is not valid under any of the schemas listed in the 'oneOf' keyword"
  | .severalAlternatives =>
    part ++ " is valid under more than one of the schemas listed in the 'oneOf' keyword"
  | .forbidden schema => schema.compact ++ " is not allowed for " ++ part
  | .nothingContained => "None of " ++ part ++ " are valid under the given schema"
  | .unresolved pointer => "Invalid reference: " ++ pointer

/-- A segment of a path; a tilde is `~0` and a slash `~1`. -/
def escapeSegment (segment : String) : String :=
  String.ofList (segment.toList.flatMap fun
    | '~' => ['~', '0']
    | '/' => ['~', '1']
    | c => [c])

/-- The path as a pointer, a single slash for the instance itself. -/
def pathText : List String → String
  | [] => "/"
  | path => String.join (path.map fun segment => "/" ++ escapeSegment segment)

def text (failure : Failure) : String :=
  pathText failure.path ++ ": " ++ causeText failure.part.compact failure.cause

end Failure

end SchemaSampler
