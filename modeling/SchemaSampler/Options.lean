import SchemaSampler.Json.Basic
import SchemaSampler.Random.Source

/-!
# Sampling options

Options hold the synthetic keys, the limits on generation work and the seed of the catalogs.
They are read from an object in which every field may be missing and unknown ones are ignored,
or from a list of the fields in their order.
-/

namespace SchemaSampler

/-- Names that carry the dynamically keyed parts of an object until hoisting. -/
structure SyntheticKeys where
  additionalProperties : String := "__jsonalchemy_additional_properties__"
  patternProperties : String := "__jsonalchemy_pattern_properties__"
  allOf : String := "__jsonalchemy_all_of__"
deriving DecidableEq, Repr

namespace SyntheticKeys

def toList (keys : SyntheticKeys) : List String :=
  [keys.additionalProperties, keys.patternProperties, keys.allOf]

def contains (keys : SyntheticKeys) (name : String) : Bool :=
  name == keys.additionalProperties || name == keys.patternProperties || name == keys.allOf

/-- The three keys differ from each other. -/
def Distinct (keys : SyntheticKeys) : Prop :=
  keys.additionalProperties ≠ keys.patternProperties ∧
    keys.additionalProperties ≠ keys.allOf ∧ keys.patternProperties ≠ keys.allOf

/-- Random identifiers, for schemas whose names might clash with the default keys. -/
def random : Random SyntheticKeys := do
  let additional ← Random.uuid
  let patterns ← Random.uuid
  let merged ← Random.uuid
  pure ⟨additional, patterns, merged⟩

end SyntheticKeys

/-- Bounds on generation work. -/
structure Limits where
  /-- Candidates that a filter draws before it gives up. -/
  maxAttempts : Nat := 1000
  /-- Reference depth from which collections and choices take their smallest shape. -/
  windDownDepth : Nat := 6
  /-- Reference depth from which no reference is expanded. -/
  maxDepth : Nat := 64
  /-- Greatest array length where a schema gives none. -/
  maxItems : Nat := 8
  /-- Greatest number of entries drawn for a dictionary. -/
  maxEntries : Nat := 4
  /-- Greatest length of unconstrained strings. -/
  maxStringLength : Nat := 16
  /-- Repetitions that an open repetition of a pattern may add. -/
  maxRepeat : Nat := 16
  /-- Values drawn for a catalog. -/
  catalogSize : Nat := 42
  /-- Nesting depth of unconstrained values. -/
  arbitraryDepth : Nat := 2
deriving DecidableEq, Repr

structure Options where
  keys : SyntheticKeys := {}
  limits : Limits := {}
  catalogSeed : Nat := 0
deriving DecidableEq, Repr

/-! ## Reading -/

/-- The fields of a structure in a value: an object has them by name, a list by place. -/
def fieldsOf? (names : List String) : Json → Option (Entries Json)
  | .obj members => some (members.filter fun member => names.contains member.1)
  | .arr items =>
    if items.length ≤ names.length then some (Entries.ofList (names.zip items)) else none
  | _ => none

/-- A field with a reader, the default when it is missing. -/
def field? {α : Type} (fields : Entries Json) (name : String) (default : α)
    (read? : Json → Option α) : Option α :=
  match fields.get? name with
  | some value => read? value
  | none => some default

def readText? : Json → Option String
  | .str text => some text
  | _ => none

/-- A natural number below a bound, written as an integer. -/
def readBelow? (bound : Nat) : Json → Option Nat
  | .int value => if 0 ≤ value && value < bound then some value.toNat else none
  | _ => none

def readWord32? : Json → Option Nat := readBelow? 0x100000000
def readWord64? : Json → Option Nat := readBelow? 0x10000000000000000

def SyntheticKeys.read? (value : Json) : Option SyntheticKeys := do
  let default : SyntheticKeys := {}
  let fields ← fieldsOf? ["additional_properties", "pattern_properties", "all_of"] value
  let additional ← field? fields "additional_properties" default.additionalProperties readText?
  let patterns ← field? fields "pattern_properties" default.patternProperties readText?
  let merged ← field? fields "all_of" default.allOf readText?
  some ⟨additional, patterns, merged⟩

def Limits.fieldNames : List String :=
  ["max_attempts", "wind_down_depth", "max_depth", "max_items", "max_entries",
    "max_string_len", "max_repeat", "faker_catalog_size", "arbitrary_depth"]

def Limits.read? (value : Json) : Option Limits := do
  let default : Limits := {}
  let fields ← fieldsOf? Limits.fieldNames value
  let maxAttempts ← field? fields "max_attempts" default.maxAttempts readWord32?
  let windDownDepth ← field? fields "wind_down_depth" default.windDownDepth readWord64?
  let maxDepth ← field? fields "max_depth" default.maxDepth readWord64?
  let maxItems ← field? fields "max_items" default.maxItems readWord64?
  let maxEntries ← field? fields "max_entries" default.maxEntries readWord64?
  let maxStringLength ← field? fields "max_string_len" default.maxStringLength readWord64?
  let maxRepeat ← field? fields "max_repeat" default.maxRepeat readWord32?
  let catalogSize ← field? fields "faker_catalog_size" default.catalogSize readWord64?
  let arbitraryDepth ← field? fields "arbitrary_depth" default.arbitraryDepth readWord64?
  some ⟨maxAttempts, windDownDepth, maxDepth, maxItems, maxEntries, maxStringLength, maxRepeat,
    catalogSize, arbitraryDepth⟩

def Options.read? (value : Json) : Option Options := do
  let fields ← fieldsOf? ["keys", "limits", "catalog_seed"] value
  let keys ← field? fields "keys" {} SyntheticKeys.read?
  let limits ← field? fields "limits" {} Limits.read?
  let catalogSeed ← field? fields "catalog_seed" 0 readWord64?
  some ⟨keys, limits, catalogSeed⟩

/-! ## Writing -/

def SyntheticKeys.toJson (keys : SyntheticKeys) : Json :=
  Json.object [("additional_properties", .str keys.additionalProperties),
    ("pattern_properties", .str keys.patternProperties), ("all_of", .str keys.allOf)]

def Limits.toJson (limits : Limits) : Json :=
  let values := [limits.maxAttempts, limits.windDownDepth, limits.maxDepth, limits.maxItems,
    limits.maxEntries, limits.maxStringLength, limits.maxRepeat, limits.catalogSize,
    limits.arbitraryDepth]
  Json.object (Limits.fieldNames.zip (values.map fun (value : Nat) => Json.int value))

def Options.toJson (options : Options) : Json :=
  Json.object [("keys", options.keys.toJson), ("limits", options.limits.toJson),
    ("catalog_seed", .int options.catalogSeed)]

end SchemaSampler
