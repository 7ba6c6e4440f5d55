import SchemaSampler.Compile

/-!
# Samplers

A sampler draws values of one schema from any random source. A raw sampler keeps synthetic keys
in its values; a hoisted one splices their contents into place.
-/

namespace SchemaSampler

structure Sampler where
  entry : Generator
  slots : Slots
  options : Options

namespace Sampler

/-- The sampler of raw values of a schema. -/
def compile (schema : Json) (options : Options) (registry : Registry) :
    Except SampleError Sampler :=
  match Document.parse schema with
  | .error fault => .error (.unsupported fault)
  | .ok document => do
    let slots ← document.slots options registry
    let entry ← slots.body rootSlot
    pure ⟨entry, slots, options⟩

/-- The sampler whose values are hoisted. -/
def hoisted (sampler : Sampler) : Sampler :=
  { sampler with entry := .map sampler.entry (hoist sampler.options.keys) }

def compileHoisted (schema : Json) (options : Options) (registry : Registry) :
    Except SampleError Sampler := do
  let sampler ← compile schema options registry
  pure sampler.hoisted

/-- One value, and the source after it. -/
def draw (sampler : Sampler) (source : Source) : Except SampleError Json × Source :=
  let (result, cursor) :=
    Generator.draw sampler.options sampler.slots.bodies sampler.entry { source }
  (result, cursor.source)

/-- A number of consecutive draws; the source goes on after an error. -/
def samples (sampler : Sampler) (source : Source) :
    (count : Nat) → List (Except SampleError Json) × Source
  | 0 => ([], source)
  | count + 1 =>
    let (result, source) := sampler.draw source
    let (results, source) := sampler.samples source count
    (result :: results, source)

/-- The number of slots, the root's included. -/
def definitionCount (sampler : Sampler) : Nat := sampler.slots.bodies.length

/-- A short description: the kind of the entry and the number of slots. -/
def description (sampler : Sampler) : String :=
  "SchemaGenerator \x7b entry: \"" ++ sampler.entry.id ++ "\", slots: " ++
    toString sampler.definitionCount ++ " \x7d"

end Sampler

end SchemaSampler
