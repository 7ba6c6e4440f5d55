import SchemaSampler.Proofs.Compile.Parts
import SchemaSampler.Proofs.Draw.Renumbering

/-!
# Basic nodes

Nodes for fixed values, numbers and texts compile without any inner schema. Their generators draw
the same whatever references expand to and whatever the synthetic keys are.

Results:
1. `Compiler.compile_isBasic`: basic nodes compile to basic generators.
2. `Compiler.compile_basic_eq`: synthetic keys do not matter for that.
3. `Generator.IsBasic.drawWith_eq`: nor do they matter for a draw.
-/

namespace SchemaSampler

/-- The node is for fixed values, numbers or texts. -/
def Node.IsBasic : Node → Prop
  | .null | .boolean | .constant _ | .enumeration _ _ | .integer _ | .number _ | .text _ => True
  | _ => False

/-- Registered generators are closures. -/
def Registry.Closures (registry : Registry) : Prop :=
  ∀ entry ∈ registry, ∃ draw, entry.2 = .closure draw

namespace Generator

/-- Values are drawn in one piece: there are no inner values, drawn keys or references. -/
def IsBasic : Generator → Prop
  | constant _ | boolean | enumeration _ _ | integer _ _ _ | number _ _ _ | text _ | pattern _ => True
  | filter inner _ _ => inner.IsBasic
  | _ => False

variable {generator : Generator}

theorem IsBasic.not_refers (basic : generator.IsBasic) (pointer : String) (slot : Nat) :
    ¬ generator.Refers pointer slot := by
  intro refers
  induction refers with
  | filter _ ih => exact ih basic
  | _ => exact basic

/-- Neither expansions nor synthetic keys take part in the draw. -/
theorem IsBasic.drawWith_eq (basic : generator.IsBasic) {options twinOptions : Options}
    (limits : options.limits = twinOptions.limits) (expand twin : Nat → Draw Json) :
    generator.drawWith options expand = generator.drawWith twinOptions twin := by
  induction generator using Generator.induction with
  | filter inner fragment accepts ih => rw [drawWith, drawWith, ih basic, limits]
  | constant | boolean | enumeration | integer | number | text | pattern => rfl
  | _ => exact basic.elim

theorem enumerationOf_isBasic {label : String} {values : List Json}
    (built : enumerationOf label values = .ok generator) : generator.IsBasic := by
  unfold enumerationOf at built
  split at built
  next => cases built
  next =>
    cases built
    trivial

theorem integerOf_isBasic {bounds : NumericBounds} (built : integerOf bounds = .ok generator) :
    generator.IsBasic := by
  obtain ⟨⟨low, high⟩, -, built⟩ := Except.bind_eq_ok.mp built
  dsimp only at built
  split at built
  next =>
    cases built
    trivial
  next =>
    obtain ⟨whole, -, built⟩ := Except.bind_eq_ok.mp built
    obtain ⟨multiples, -, built⟩ := Except.bind_eq_ok.mp built
    cases built
    trivial

theorem numberOf_isBasic {bounds : NumericBounds} (built : numberOf bounds = .ok generator) :
    generator.IsBasic := by
  obtain ⟨⟨low, high⟩, -, built⟩ := Except.bind_eq_ok.mp built
  dsimp only at built
  split at built
  next =>
    cases built
    trivial
  next =>
    obtain ⟨multiples, -, built⟩ := Except.bind_eq_ok.mp built
    cases built
    trivial

end Generator

namespace Compiler

variable {compiler : Compiler} {generator : Generator}

theorem text_isBasic {spec : TextSpec} (built : compiler.text spec = .ok generator) :
    generator.IsBasic := by
  unfold text at built
  split at built
  next =>
    obtain ⟨_, -, rfl⟩ := Generator.patternOf_eq_ok.mp built
    trivial
  next =>
    obtain ⟨values, -, built⟩ := Except.bind_eq_ok.mp built
    exact Generator.enumerationOf_isBasic built
  next =>
    cases built
    trivial

theorem compile_isBasic {node : Node} (basic : node.IsBasic)
    (compiled : compiler.compile node = .ok generator) : generator.IsBasic := by
  cases node with
  | null | boolean | constant =>
    cases compiled
    trivial
  | enumeration => exact Generator.enumerationOf_isBasic (Except.asInvalid_eq_ok.mp compiled)
  | integer => exact Generator.integerOf_isBasic (Except.asInvalid_eq_ok.mp compiled)
  | number => exact Generator.numberOf_isBasic (Except.asInvalid_eq_ok.mp compiled)
  | text => exact text_isBasic (Except.asInvalid_eq_ok.mp compiled)
  | _ => exact basic.elim

/-- Basic nodes are compiled from the options other than synthetic keys. -/
theorem compile_basic_eq {twin : Compiler} {node : Node} (basic : node.IsBasic)
    (options : twin.options = { compiler.options with keys := twin.options.keys }) :
    twin.compile node = compiler.compile node := by
  cases node with
  | text spec =>
    show Except.asInvalid (twin.text spec) = Except.asInvalid (compiler.text spec)
    unfold text Generator.catalogOf
    rw [options]
  | null | boolean | constant | enumeration | integer | number => rfl
  | _ => exact basic.elim

/-! ## Other leaves -/

theorem negation_eq_ok {source : Json} (built : compiler.negation source = .ok generator) :
    ∃ validator, Validator.ofSchema? (compiler.negatedSchema source) = some validator ∧
      generator = .filter compiler.arbitrary ("not " ++ source.compact)
        fun value => !validator.isValid value := by
  unfold negation at built
  split at built
  next validator found => exact ⟨validator, found, (Except.ok.inj built).symm⟩
  next => cases built

theorem find_eq_closure {registry : Registry} (closures : registry.Closures) {name : String}
    (found : registry.find name = .ok generator) : ∃ draw, generator = .closure draw := by
  unfold Registry.find at found
  split at found
  next present =>
    cases found
    exact closures _ (Entries.mem_of_get?_eq_some present)
  next => cases found

end Compiler

end SchemaSampler
