import SchemaSampler.Generator.Draw
import SchemaSampler.Text.Pointers

/-!
# Named definitions

Every definition gets a slot before any body is known, so a reference is a slot number however
definitions refer to each other. Slot 0 is the document root. A `Binder` collects names and
bodies; `freeze` closes it to `Slots` once every slot has a body.
-/

namespace SchemaSampler

/-- The pointer to the document root, which also names its slot. -/
def rootPointer : String := "#"

/-- The slot of the document root. -/
def rootSlot : Nat := 0

/-- Slots with their names, the slots of the names other than the root's, and the bodies. -/
structure Binder where
  names : List String := [rootPointer]
  index : Entries Nat := []
  bodies : List (Option Generator) := [none]

/-- Slots with a body each. -/
structure Slots where
  names : List String
  bodies : List Generator

namespace Binder

/-- The slot of a name, a new one when the name has none. -/
def register (binder : Binder) (name : String) : Nat × Binder :=
  match binder.index.get? name with
  | some slot => (slot, binder)
  | none =>
    let slot := binder.bodies.length
    (slot, ⟨binder.names ++ [name], binder.index.insert name slot, binder.bodies ++ [none]⟩)

/-! ## Pointers -/

/-- The part after the last slash, nothing without one. -/
def lastSegment? (pointer : String) : Option (List Char) :=
  let chars := pointer.toList
  if chars.contains '/' then some ((chars.reverse.takeWhile fun c => c != '/').reverse) else none

/-- The slot of a pointer: the root, or the name in its last segment. -/
def resolve (binder : Binder) (pointer : String) : Except SampleError Nat :=
  if pointer = "" ∨ pointer = rootPointer then .ok rootSlot
  else
    match (lastSegment? pointer).bind fun segment => binder.index.get? (Pointer.segmentName segment) with
    | some slot => .ok slot
    | none => .error (.unresolvedReference pointer)

/-! ## Bodies -/

/-- Gives a slot its body. -/
def fill (binder : Binder) (slot : Nat) (body : Generator) : Except SampleError Binder :=
  if slot < binder.bodies.length then
    .ok { binder with bodies := binder.bodies.set slot (some body) }
  else .error (.invalidSchema (.missingSlot slot))

/-- The bodies by slot, or the name of the first slot without one. -/
def bodiesOf : List String → List (Option Generator) → Except SampleError (List Generator)
  | name :: names, body :: bodies =>
    match body with
    | some body => do
      let rest ← bodiesOf names bodies
      pure (body :: rest)
    | none => .error (.unboundDefinition name)
  | _, _ => .ok []

def freeze (binder : Binder) : Except SampleError Slots := do
  let bodies ← bodiesOf binder.names binder.bodies
  pure ⟨binder.names, bodies⟩

end Binder

namespace Slots

def body (slots : Slots) (slot : Nat) : Except SampleError Generator :=
  Generator.bodyIn slots.bodies slot

def name? (slots : Slots) (slot : Nat) : Option String := slots.names[slot]?

end Slots

/-- Generators that schemas use by name. -/
abbrev Registry := Entries Generator

namespace Registry

def find (registry : Registry) (name : String) : Except SampleError Generator :=
  match Entries.get? registry name with
  | some generator => .ok generator
  | none => .error (.unknownGenerator name)

end Registry

end SchemaSampler
