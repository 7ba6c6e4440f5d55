import SchemaSampler.Schema.Classify

/-!
# Sampling errors

What can go wrong when a schema is compiled or a value is drawn, and the text of each error.
-/

namespace SchemaSampler

/-- Why a schema with a shape has no generator. -/
inductive InvalidReason where
  | emptyEnum (label : String)
  | emptyChoice (label : String)
  | noMultiple (step low high : Binary64)
  | badStep (step : Binary64)
  | noWholeStep (step : Binary64)
  | unrepresentable (value : Binary64)
  | emptyIntegerRange (low high : Int)
  | infiniteNumberRange (low high : Binary64)
  | emptyNumberRange (low high : Binary64)
  | itemBounds (low high : Nat)
  | missingSlot (slot : Nat)
  | unsupportedProvider (provider : String)
  | emptyCatalog (provider : String)
  | badPattern (pattern : String)
deriving DecidableEq, Repr

/-- A range as messages show it. -/
def rangeText (low high : String) : String := "[" ++ low ++ ", " ++ high ++ "]"

def InvalidReason.text : InvalidReason → String
  | emptyEnum label => label ++ " needs at least one value"
  | emptyChoice label => label ++ " needs at least one alternative"
  | noMultiple step low high =>
    "no multiple of " ++ step.plainText ++ " within " ++ rangeText low.plainText high.plainText
  | badStep step => "multipleOf must be a positive number, got " ++ step.plainText
  | noWholeStep step =>
    "multipleOf " ++ step.plainText ++ " has no whole-number multiple usable for an integer"
  | unrepresentable value => "cannot represent " ++ value.plainText ++ " as a JSON number"
  | emptyIntegerRange low high =>
    "integer range is empty: " ++ rangeText (toString low) (toString high)
  | infiniteNumberRange low high =>
    "number range must be finite: " ++ rangeText low.plainText high.plainText
  | emptyNumberRange low high =>
    "number range is empty: " ++ rangeText low.plainText high.plainText
  | itemBounds low high => "minItems " ++ toString low ++ " exceeds maxItems " ++ toString high
  | missingSlot slot => "definition slot " ++ toString slot ++ " does not exist"
  | unsupportedProvider provider => "unsupported faker provider '" ++ provider ++ "'"
  | emptyCatalog provider =>
    "faker catalog for '" ++ provider ++ "' must hold at least one value"
  | badPattern pattern => "invalid regex pattern `" ++ pattern ++ "`"

/-- An operation outside its domain; no draw of a compiled schema reaches one. -/
inductive Defect where
  | emptyRange
  | indexOutside
  | depthBelowZero
deriving DecidableEq, Repr

inductive SampleError where
  | unsupported (fault : Unsupported)
  | unresolvedReference (pointer : String)
  | invalidSchema (reason : InvalidReason)
  /-- A filter or a set of distinct items ran out of attempts. -/
  | exhausted (attempts : Nat) (fragment : String)
  | recursionLimit (limit : Nat)
  | unboundDefinition (name : String)
  | unknownGenerator (name : String)
  /-- A negated schema is no schema to the validator. -/
  | noValidator
  | defect (defect : Defect)

def Defect.text : Defect → String
  | emptyRange => "empty range"
  | indexOutside => "index outside a list"
  | depthBelowZero => "depth below zero"

def SampleError.message : SampleError → String
  | unsupported fault => fault.message
  | unresolvedReference pointer => "unresolved reference: " ++ pointer
  | invalidSchema reason => "invalid schema: " ++ reason.text
  | exhausted attempts fragment =>
    "generation exhausted after " ++ toString attempts ++ " attempts: " ++ fragment
  | recursionLimit limit => "recursion depth limit of " ++ toString limit ++ " exceeded"
  | unboundDefinition name => "definition `" ++ name ++ "` was used before it was bound"
  | unknownGenerator name => "no generator registered as `" ++ name ++ "`"
  | noValidator => "validator error"
  | defect reason => "internal defect: " ++ reason.text

end SchemaSampler
