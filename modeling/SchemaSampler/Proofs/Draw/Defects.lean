import SchemaSampler.Proofs.Compile.Checked
import SchemaSampler.Proofs.Compile.Slots
import SchemaSampler.Proofs.Draw.Recursion

/-!
# Draws without defects

An operation on an empty range, outside a list or below depth zero ends a draw with a defect.
Checked generators cause none, and what a reference leads to is checked as well, so a compiled
schema never comes to such an operation: whatever the options, the depth and the source are.

Results:
1. `Generator.draw_without_defects`: the draws of checked generators over checked bodies.
2. `Document.slots_checked`: the bodies of a compiled document.
3. `Sampler.draws_without_defects`: every slot of a compiled sampler, raw and hoisted.
-/

namespace SchemaSampler

namespace Generator

open Draw

variable {options : Options} {bodies : Bodies} {generator : Generator}

theorem Checked.ownErrors (checked : generator.Checked) :
    generator.OwnErrorsIn fun error => ¬ error.IsDefect :=
  fun _ _ unchecked defect => unchecked defect checked

theorem drawWithin_without_defects (all : ∀ body ∈ bodies, body.Checked)
    (checked : generator.Checked) (budget depth : Nat) :
    Meets depth (fun error => ¬ error.IsDefect) (generator.Yields options fun _ _ => True)
      (drawWithin options bodies budget generator) (drawWithin options bodies budget generator) := by
  induction budget generalizing depth generator with
  | zero => exact drawWith_meets_checked checked.ownErrors fun _ _ => fail_meets not_false
  | succ budget ih =>
    refine drawWith_meets_checked checked.ownErrors fun slot _ => ?_
    refine body_meets (fun _ _ => not_false) fun body found => ?_
    exact (ih (all body (List.mem_of_getElem? found)) (depth + 1)).mono fun _ _ => trivial

theorem draw_without_defects (all : ∀ body ∈ bodies, body.Checked) (checked : generator.Checked)
    (cursor : Cursor) (defect : Defect) :
    (draw options bodies generator cursor).1 ≠ .error (.defect defect) := by
  intro failed
  have meets : Meets cursor.depth (fun error => ¬ error.IsDefect)
      (generator.Yields options fun _ _ => True) (draw options bodies generator)
      (draw options bodies generator) :=
    drawWithin_without_defects all checked (options.limits.maxDepth - cursor.depth) cursor.depth
  exact meets.allows failed trivial

end Generator

/-- Compilation fills the slots with checked generators. -/
theorem Document.slots_checked {document : Document} {options : Options} {registry : Registry}
    {slots : Slots} (closures : registry.Closures)
    (compiled : document.slots options registry = .ok slots) :
    ∀ body ∈ slots.bodies, body.Checked := by
  intro body present
  obtain ⟨slot, found⟩ := List.mem_iff_getElem?.mp present
  rcases slots_body compiled found with ⟨-, own⟩ | ⟨_, _, -, -, own⟩
  · exact Compiler.compile_checked closures own
  · exact Compiler.compile_checked closures own

namespace Sampler

/-- No draw of any slot of a compiled sampler, raw or hoisted, uses an operation outside its domain,
at whatever depth it starts. -/
theorem draws_without_defects {schema : Json} {options : Options} {registry : Registry}
    {sampler : Sampler} (closures : registry.Closures)
    (compiled : compile schema options registry = .ok sampler) {slot : Nat} {body : Generator}
    (found : sampler.slots.bodies[slot]? = some body) (cursor : Cursor) (defect : Defect) :
    (Generator.draw options sampler.slots.bodies body cursor).1 ≠ .error (.defect defect) ∧
      (Generator.draw options sampler.slots.bodies (.map body (hoist options.keys)) cursor).1 ≠
        .error (.defect defect) := by
  obtain ⟨document, -, slots, -, -⟩ := compile_eq_ok.mp compiled
  have all := Document.slots_checked closures slots
  have own := all body (List.mem_of_getElem? found)
  exact ⟨Generator.draw_without_defects all own cursor defect,
    Generator.draw_without_defects all (.map own) cursor defect⟩

/-- Lists of integers, of one of three words, or of such lists. -/
def nestingSchema : Json :=
  .obj [("items", .obj [("anyOf", .arr [.obj [("type", .str "integer")],
      .obj [("enum", .strings ["a", "b", "c"])], .obj [("$ref", .str "#")]])]),
    ("minItems", .int 2), ("type", .str "array")]

def nestingBody : Generator :=
  .array (.choice "structural.any_of" [.integer (-0x80000000) 0x7FFFFFFF none,
    .enumeration "primitive.enum" [.str "a", .str "b", .str "c"], .reference "#" 0] (some 0))
    2 8 false

def nestingSampler : Sampler := ⟨nestingBody, ⟨["#"], [nestingBody]⟩, {}⟩

theorem nesting_compiled : compile nestingSchema {} [] = .ok nestingSampler := by cbv

theorem nesting_draws_without_defects :
    Registry.Closures [] ∧ compile nestingSchema {} [] = .ok nestingSampler ∧
      nestingSampler.slots.bodies[0]? = some nestingBody ∧
      (Generator.draw {} [nestingBody] nestingBody ⟨.cycle #[1, 2, 3], 3⟩).1 ≠
        .error (.defect .emptyRange) := by
  have closures : Registry.Closures [] := nofun
  have found : nestingSampler.slots.bodies[0]? = some nestingBody := rfl
  exact ⟨closures, nesting_compiled, found,
    (draws_without_defects closures nesting_compiled found ⟨.cycle #[1, 2, 3], 3⟩ .emptyRange).1⟩

end Sampler

end SchemaSampler
