import SchemaSampler.Generator.Multiples
import SchemaSampler.Pattern.Matching
import SchemaSampler.Pattern.Synthesis

/-!
# Generators

A generator describes how JSON values are drawn. It is a tree; only references lead out of it,
to the definition in a slot. Generators are built by functions that check what a draw relies on:
an enumeration has a value, a choice an alternative, and the bounds of an array are in order.
-/

namespace SchemaSampler

inductive Generator where
  | constant (value : Json)
  | boolean
  /-- One of several values. -/
  | enumeration (label : String) (values : List Json)
  | integer (low high : Int) (multiples : Option Multiples)
  | number (low high : Binary64) (multiples : Option Multiples)
  /-- Unconstrained text. -/
  | text (maxLength : Nat)
  | pattern (synthesizer : Synthesizer)
  /-- One of several alternatives; the minimal one when recursion winds down. -/
  | choice (label : String) (alternatives : List Generator) (minimal : Option Nat)
  | array (items : Generator) (minItems maxItems : Nat) (unique : Bool)
  | tuple (items : List Generator)
  | record (fields : List (String × Generator))
  /-- An object with drawn keys; reserved keys and those that match an excluded pattern are
  dropped. -/
  | dictionary (keys values : Generator) (maxEntries : Nat) (reserved : List String)
      (excluded : List Pattern)
  /-- Any JSON value. -/
  | arbitrary (depth maxEntries maxLength : Nat)
  /-- Draws again until a value is accepted. -/
  | filter (inner : Generator) (fragment : String) (accepts : Json → Bool)
  | map (inner : Generator) (apply : Json → Json)
  | reference (pointer : String) (slot : Nat)
  /-- A function of the random source. -/
  | closure (draw : Random Json)

namespace Generator

instance : Inhabited Generator := ⟨constant .null⟩

/-- The name of a generator's kind. -/
def id : Generator → String
  | constant _ => "primitive.const"
  | boolean => "primitive.bool"
  | enumeration label _ => label
  | integer _ _ _ => "primitive.int.range"
  | number _ _ _ => "primitive.float.range"
  | text _ => "primitive.text"
  | pattern _ => "primitive.text.pattern"
  | choice label _ _ => label
  | array _ _ _ unique => if unique then "structural.set" else "structural.array"
  | tuple _ => "structural.tuple"
  | record _ => "structural.record"
  | dictionary _ _ _ _ _ => "structural.dictionary"
  | arbitrary _ _ _ => "structural.anything"
  | filter _ _ _ => "transform.filter"
  | map _ _ => "transform.map"
  | reference _ _ => "structural.reference"
  | closure _ => "custom.fn"

/-! ## Checked construction -/

def enumerationOf (label : String) (values : List Json) : Except InvalidReason Generator :=
  if values.isEmpty then .error (.emptyEnum label) else .ok (enumeration label values)

/-- A minimal alternative that does not exist is ignored. -/
def choiceOf (label : String) (alternatives : List Generator) (minimal : Option Nat) :
    Except InvalidReason Generator :=
  if alternatives.isEmpty then .error (.emptyChoice label)
  else .ok (choice label alternatives (minimal.filter fun place => place < alternatives.length))

def arrayOf (items : Generator) (minItems maxItems : Nat) (unique : Bool) :
    Except InvalidReason Generator :=
  if maxItems < minItems then .error (.itemBounds minItems maxItems)
  else .ok (array items minItems maxItems unique)

def patternOf (text : String) (maxRepeat : Nat) : Except InvalidReason Generator :=
  match Synthesizer.ofPattern? text maxRepeat with
  | some synthesizer => .ok (pattern synthesizer)
  | none => .error (.badPattern text)

end Generator

end SchemaSampler
