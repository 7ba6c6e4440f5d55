import SchemaSampler.Schema.Keywords

/-!
# Classified schemas

A schema node has exactly one shape, and its inner schemas are nodes. `hasReferences` tells
whether a reference occurs anywhere below a node.
-/

namespace SchemaSampler

/-- Constraints of integer and number nodes. -/
structure NumericBounds where
  minimum : Option Binary64 := none
  maximum : Option Binary64 := none
  exclusiveMinimum : Option ExclusiveBound := none
  exclusiveMaximum : Option ExclusiveBound := none
  multipleOf : Option Binary64 := none
deriving DecidableEq, Repr

structure TextSpec where
  pattern : Option String := none
  faker : Option String := none
deriving DecidableEq, Repr

structure ListBounds where
  minItems : Option Nat := none
  maxItems : Option Nat := none
  unique : Bool := false
deriving DecidableEq, Repr

/-- The type that an enumeration was declared with, where it matters. -/
inductive EnumKind where
  | untyped | integer | number | text
deriving DecidableEq, Repr

/-- How an object treats keys outside its declared properties. -/
inductive Additional (α : Type) where
  | absent
  | forbidden
  | anything
  | schema (node : α)

/-- An object schema over inner schemas of some type. -/
structure ObjectSpec (α : Type) where
  properties : List (String × α)
  required : List String
  additional : Additional α
  patterns : List (String × α)
  /-- For a property, the names that have to be present with it. -/
  dependencies : Entries (List String)
  /-- Properties whose dependency is a schema. -/
  schemaDependencies : List String

inductive Node where
  | null
  | boolean
  | constant (value : Json)
  | enumeration (kind : EnumKind) (values : List Json)
  | integer (bounds : NumericBounds)
  | number (bounds : NumericBounds)
  | text (spec : TextSpec)
  | reference (pointer : String)
  | list (items : Node) (bounds : ListBounds)
  | tuple (items : List Node)
  | object (spec : ObjectSpec Node)
  | anyOf (members : List Node)
  | oneOf (members : List Node)
  | allOf (members : List Node)
  /-- A negated node with its JSON form, which the validator needs. -/
  | negation (negated : Node) (source : Json)
  /-- Values come from a registered generator. -/
  | custom (name : String)
  | anything

namespace Node

instance : Inhabited Node := ⟨anything⟩

/-- The name of a node's shape. -/
def shape : Node → String
  | null => "null"
  | boolean => "boolean"
  | constant _ => "const"
  | enumeration .untyped _ => "enum"
  | enumeration .integer _ => "integer_enum"
  | enumeration .number _ => "number_enum"
  | enumeration .text _ => "string_enum"
  | integer _ => "integer"
  | number _ => "number"
  | text _ => "string"
  | reference _ => "reference"
  | list _ _ => "list"
  | tuple _ => "tuple"
  | object _ => "object"
  | anyOf _ => "any_of"
  | oneOf _ => "one_of"
  | allOf _ => "all_of"
  | negation _ _ => "not"
  | custom _ => "custom"
  | anything => "empty"

mutual
/-- A reference occurs at the node or below it. -/
def hasReferences : Node → Bool
  | reference _ => true
  | list items _ => items.hasReferences
  | tuple items => anyReferences items
  | anyOf members => anyReferences members
  | oneOf members => anyReferences members
  | allOf members => anyReferences members
  | object spec => specReferences spec
  | negation negated _ => negated.hasReferences
  | _ => false
termination_by structural node => node

def anyReferences : List Node → Bool
  | [] => false
  | node :: rest => node.hasReferences || anyReferences rest
termination_by structural nodes => nodes

def entryReferences : List (String × Node) → Bool
  | [] => false
  | (_, node) :: rest => node.hasReferences || entryReferences rest
termination_by structural entries => entries

def additionalReferences : Additional Node → Bool
  | .schema node => node.hasReferences
  | .absent => false
  | .forbidden => false
  | .anything => false
termination_by structural additional => additional

def specReferences : ObjectSpec Node → Bool
  | ⟨properties, _, additional, patterns, _, _⟩ =>
    entryReferences properties || entryReferences patterns || additionalReferences additional
termination_by structural spec => spec
end

end Node

end SchemaSampler
