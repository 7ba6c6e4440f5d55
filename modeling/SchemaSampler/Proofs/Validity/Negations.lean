import SchemaSampler.Proofs.Compile.Leaves
import SchemaSampler.Proofs.Validity.Grounded
import SchemaSampler.Proofs.Validity.Soundness

/-!
# Draws of a negation

A negation draws any values and keeps those that its validator rejects. The validator's schema asks
for what is negated beside the same definitions, so the two agree on every grounded schema and the
kept values are valid for the document. A reference to the root means another schema to each of
them, and then a draw can be invalid.

Results:
1. `Schema.Grounded.isValid_negatedSchema_congr`: further definitions do not matter to the validator
   of a negation.
2. `Schema.Grounded.isValid_negationOf`: what it rejects is valid for the document.
3. `Sampler.negation_draw_valid`: draws of a negation are valid for the document.
4. `Sampler.nested_draw_invalid`: not so with a reference to the root.
-/

namespace SchemaSampler

namespace Schema

/-- Definitions beside a negation. -/
def negationOf (negated : Json) (definitions : Entries Json) : Json :=
  .obj [("definitions", .obj definitions), ("not", negated)]

section

variable {definitions further : Entries Json} {negated value : Json}

theorem isValid_negatedSchema_iff (compiler : Compiler) :
    (Validator.mk (compiler.negatedSchema negated)).isValid value = true ↔
      failures (compiler.negatedSchema negated)
        (Validator.fuel (compiler.negatedSchema negated) value) negated value = [] := by
  unfold Validator.isValid Validator.failures
  rw [List.isEmpty_iff, failures_eq_view, view_negatedSchema, failures_eq_view]

theorem definitionsOf_negatedSchema {compiler : Compiler}
    (same : compiler.definitions = .obj definitions) :
    Document.definitionsOf (compiler.negatedSchema negated) = .obj definitions := by
  rw [negatedSchema_eq, same]
  rfl

/-- Validators of one negation judge the same, whatever else is defined for one of them. -/
theorem Grounded.isValid_negatedSchema_congr (grounded : Grounded definitions negated)
    {compiler other : Compiler} (same : compiler.definitions = .obj definitions)
    (others : other.definitions = .obj further) (fewer : definitions.length ≤ further.length)
    (kept : ∀ name ∈ Entries.names definitions, further.get? name = definitions.get? name)
    (value : Json) : (Validator.mk (compiler.negatedSchema negated)).isValid value =
      (Validator.mk (other.negatedSchema negated)).isValid value := by
  have given := @definitionsOf_negatedSchema definitions negated compiler same
  have otherGiven := @definitionsOf_negatedSchema further negated other others
  rw [Bool.eq_iff_iff, isValid_negatedSchema_iff, isValid_negatedSchema_iff,
    grounded.failures_eq given otherGiven kept (fuel_covers given le_rfl negated value)
      (fuel_covers otherGiven fewer negated value)]

/-- The negation is valid where the validator of what it negates finds failures. -/
theorem Grounded.isValid_negationOf (grounded : Grounded definitions negated) {compiler : Compiler}
    (same : compiler.definitions = .obj definitions)
    (rejected : (Validator.mk (compiler.negatedSchema negated)).isValid value = false) :
    (Validator.mk (negationOf negated definitions)).isValid value = true := by
  have given : Document.definitionsOf (negationOf negated definitions) = .obj definitions := rfl
  have wrapped := @definitionsOf_negatedSchema definitions negated compiler same
  have agree := grounded.failures_eq given wrapped (fun _ _ => rfl)
    (fuel_covers given le_rfl negated value) (fuel_covers wrapped le_rfl negated value)
  rw [← Bool.not_eq_true, isValid_negatedSchema_iff, ← agree, failures_eq_view] at rejected
  unfold Validator.isValid Validator.failures
  rw [List.isEmpty_iff, failures_eq_view]
  exact (@view_negation_eq_nil _ value (some definitions) negated).mpr rejected

end

end Schema

namespace Sampler

/-- Every hoisted draw of a negation is valid for the whole document, if the references in what it
negates name definitions and every cycle of them passes through an item or a property. -/
theorem negation_draw_valid {negated : Json} {node : Node}
    (classified : Node.classify negated = .ok node) {definitions : Entries Json}
    (grounded : Schema.Grounded definitions negated) {options : Options} {registry : Registry}
    {sampler : Sampler}
    (compiled : compileHoisted (Schema.negationOf negated definitions) options registry =
      .ok sampler) {source : Source} {value : Json} (drawn : (sampler.draw source).1 = .ok value) :
    (Validator.mk (Schema.negationOf negated definitions)).isValid value = true := by
  obtain ⟨raw, rawCompiled, rfl⟩ := compileHoisted_eq_ok.mp compiled
  obtain ⟨document, parsed, slots, root, rfl⟩ := compile_eq_ok.mp rawCompiled
  obtain ⟨rooted, -, -, -⟩ := Document.parse_eq_ok parsed
  have present : negated ≠ .null := by
    rintro rfl
    cases classified
  obtain ⟨inner, negates⟩ := @Schema.classify_negation (some definitions) _ _ negated present rooted
  let compiler := document.compiler raw.options registry
  have compiles : compiler.compile (.negation inner negated) = .ok raw.entry :=
    negates ▸ Document.slots_root slots root
  rw [Compiler.compile] at compiles
  obtain ⟨validator, made, entry⟩ := Compiler.negation_eq_ok compiles
  -- What slots give does not matter, since nothing refers to them.
  have closed : Generator.Closed raw.options raw.slots.bodies fun _ _ => True :=
    fun _ _ _ _ _ => trivial
  obtain ⟨kept, yielded, rfl⟩ := Generator.draw_yields closed drawn
  rw [entry] at yielded
  obtain ⟨unconstrained, rejected⟩ := yielded
  rw [hoist_of_freeOf (Json.Unconstrained.freeOf unconstrained)]
  cases Validator.ofSchema?_eq_some made
  have source : compiler.definitions = .obj definitions := Document.source_of_parse parsed
  exact grounded.isValid_negationOf source ((Bool.not_eq_true' _).mp rejected)

/-- Arrays that hold such arrays only. -/
def branchSchema : Json :=
  .obj [("items", .obj [("$ref", .str "#/definitions/tree")]), ("type", .str "array")]

def branchReference : Json := .obj [("$ref", .str "#/definitions/tree")]

/-- Whatever is no tree, by a validator that finds trees among the definitions. -/
def branchSampler : Sampler :=
  let validator : Validator :=
    ⟨.obj [("allOf", .arr [branchReference]), ("definitions", .obj [("tree", branchSchema)])]⟩
  let entry := Generator.filter (.arbitrary 2 4 16) ("not " ++ branchReference.compact)
    fun value => !validator.isValid value
  ⟨.map entry (hoist {}),
    ⟨["#", "tree"], [entry, .array (.reference "#/definitions/tree" 1) 0 8 false]⟩, {}⟩

/-- The only cycle leads from trees to their items. -/
theorem branch_grounded : Schema.Grounded [("tree", branchSchema)] branchReference := by
  have named : Schema.definitionName? "#/definitions/tree" = some "tree" := by decide +kernel
  have leads {inner : Json} (applies : Schema.Applies [("tree", branchSchema)] branchReference inner) :
      inner = branchSchema :=
    (Option.some.inj (applies.of_reference rfl named)).symm
  have ends {inner : Json} : ¬ Schema.Turns [("tree", branchSchema)] branchSchema inner := by
    rintro (⟨-, beside⟩ | ⟨stated, -, -⟩)
    · exact Schema.not_beside (by decide) beside
    · cases stated
  have below {inner : Json} (below : Schema.Below branchSchema inner) : inner = branchReference := by
    cases below with
    | whole own stated =>
      simp only [List.mem_cons, List.not_mem_nil, or_false] at own
      rcases own with rfl | rfl | rfl | rfl | rfl
      all_goals cases stated
      rfl
    | place stated present =>
      cases stated
      cases present
    | member own stated =>
      rcases List.mem_pair.mp own with rfl | rfl
      all_goals cases stated
  refine .of_closed (fun schema => schema = branchReference ∨ schema = branchSchema)
    (fun schema => if (schema.get? "$ref").isSome then 1 else 0) (.inl rfl) ?_ ?_ ?_
  · rintro outer inner (rfl | rfl) applies
    · exact .inr (leads applies)
    · obtain turns | ⟨-, inside⟩ := applies
      · exact absurd turns ends
      · exact .inl (below inside)
  · rintro outer (rfl | rfl) pointer stated
    · cases stated
      exact ⟨"tree", named, List.mem_singleton.mpr rfl⟩
    · cases stated
  · rintro outer inner (rfl | rfl) turns
    · rw [leads (.turns turns)]
      decide
    · exact absurd turns ends

theorem branch_negation_draw_valid :
    Node.classify branchReference = .ok (.reference "#/definitions/tree") ∧
      Schema.Grounded [("tree", branchSchema)] branchReference ∧
      compileHoisted (Schema.negationOf branchReference [("tree", branchSchema)]) {} [] =
        .ok branchSampler ∧
      (branchSampler.draw (.cycle #[0xC0000000, 0x40000000, 0])).1 = .ok (.arr [.null]) ∧
      (Validator.mk (Schema.negationOf branchReference [("tree", branchSchema)])).isValid
        (.arr [.null]) = true := by
  have classified : Node.classify branchReference = .ok (.reference "#/definitions/tree") := rfl
  have compiled : compileHoisted (Schema.negationOf branchReference [("tree", branchSchema)]) {} [] =
      .ok branchSampler := rfl
  have drawn : (branchSampler.draw (.cycle #[0xC0000000, 0x40000000, 0])).1 = .ok (.arr [.null]) := rfl
  exact ⟨classified, branch_grounded, compiled, drawn,
    negation_draw_valid classified branch_grounded compiled drawn⟩

/-- Arrays whose items the root allows. -/
def nestedItems : Json := .obj [("items", .obj [("$ref", .str "#")]), ("type", .str "array")]

/-- Whatever is no such array, by a validator to which the root is the array's schema. -/
def nestedSampler : Sampler :=
  let validator : Validator := ⟨.obj [("allOf", .arr [nestedItems]), ("definitions", .obj [])]⟩
  let entry := Generator.filter (.arbitrary 2 4 16) ("not " ++ nestedItems.compact)
    fun value => !validator.isValid value
  ⟨.map entry (hoist {}), ⟨["#"], [entry]⟩, {}⟩

/-- The null in the array is valid, so the array is one of those that are negated. -/
theorem nested_draw_invalid :
    compileHoisted (Schema.negationOf nestedItems []) {} [] = .ok nestedSampler ∧
      (nestedSampler.draw (.cycle #[0xC0000000, 0x40000000, 0])).1 = .ok (.arr [.null]) ∧
      (Validator.mk (Schema.negationOf nestedItems [])).isValid .null = true ∧
      (Validator.mk (Schema.negationOf nestedItems [])).isValid (.arr [.null]) = false :=
  ⟨rfl, rfl, by decide +kernel, by decide +kernel⟩

end Sampler

end SchemaSampler
