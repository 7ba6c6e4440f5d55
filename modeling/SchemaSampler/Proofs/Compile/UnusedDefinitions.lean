import SchemaSampler.Proofs.Compile.References
import SchemaSampler.Proofs.Schema.Extension
import SchemaSampler.Proofs.Validity.Negations

/-!
# Definitions that nothing uses

One more definition moves the slots of the names after it. A document that compiles without the new
name has no reference to it, so the bodies it had only get other numbers and draws stay the same.
Negations are the exception: their validators see all definitions, and it is a property of the
validator that it looks at no others than those it is led to.

Results:
1. `Document.sameNegations_of_grounded`: validators of grounded negations see no other definitions.
2. `Document.resolve_move`, `Document.bodies_move`: pointers and bodies among further definitions.
3. `Sampler.samples_addDefinition`: draws with one more definition.
-/

namespace SchemaSampler

namespace Document

/-- The validator of a negation of the document. -/
def validator? (document : Document) (source : Json) : Option Validator :=
  Validator.ofSchema? (Json.object [("allOf", .arr [source]), ("definitions", document.source)])

/-- The validators of the document's negations judge the same among the definitions of another
document. -/
def SameNegations (document extended : Document) : Prop :=
  ∀ negated source, Part (.negation negated source) document → ∀ validator other,
    document.validator? source = some validator → extended.validator? source = some other →
    ∀ value, validator.isValid value = other.isValid value

/-- Negations of schemas grounded in the definitions judge the same with one definition more. -/
theorem sameNegations_of_grounded {document extended : Document} {definitions : Entries Json}
    {name : String} {definition : Json} (source : document.source = .obj definitions)
    (extendedSource : extended.source = .obj (Entries.insert name definition definitions))
    (fresh : name ∉ Entries.names definitions)
    (grounded : ∀ negated source, Part (.negation negated source) document →
      Schema.Grounded definitions source) : SameNegations document extended := by
  intro negated stated present validator other made otherMade value
  cases Validator.ofSchema?_eq_some made
  cases Validator.ofSchema?_eq_some otherMade
  have kept : ∀ other ∈ Entries.names definitions,
      (Entries.insert name definition definitions).get? other = definitions.get? other := by
    intro other known
    rw [Entries.get?_insert, if_neg]
    rintro rfl
    exact fresh known
  have own : (document.compiler {} []).definitions = .obj definitions := source
  have others : (extended.compiler {} []).definitions = .obj _ := extendedSource
  exact (grounded negated stated present).isValid_negatedSchema_congr own others
    (Entries.length_le_length_insert _ _ _) kept value

/-! ## Slots among further definitions -/

/-- Another document has the same root and all definitions. -/
structure Among (document extended : Document) : Prop where
  root : extended.root = document.root
  distinct : (Entries.names document.definitions).Nodup
  further : (Entries.names extended.definitions).Nodup
  definitions : document.definitions ⊆ extended.definitions

/-- The number that a slot of the first document has in the second one. -/
def move (document extended : Document) : Nat → Nat
  | 0 => 0
  | place + 1 =>
    match document.definitions[place]? with
    | some (name, _) => (Entries.names extended.definitions).idxOf name + 1
    | none => 0

variable {document extended : Document} {options : Options} {registry : Registry}

theorem Among.definition (among : Among document extended) {place : Nat} {name : String}
    {node : Node} (found : document.definitions[place]? = some (name, node)) :
    ∃ other, document.move extended (place + 1) = other + 1 ∧
      extended.definitions[other]? = some (name, node) := by
  obtain ⟨other, there⟩ := List.getElem?_of_mem (among.definitions (List.mem_of_getElem? found))
  refine ⟨other, ?_, there⟩
  obtain ⟨inside, named⟩ : ∃ inside : other < (Entries.names extended.definitions).length,
      (Entries.names extended.definitions)[other] = name := by
    refine List.getElem?_eq_some_iff.mp ?_
    rw [Entries.names, List.getElem?_map, there]
    rfl
  rw [move, found]
  dsimp only
  rw [← named, among.further.idxOf_getElem]

/-- A pointer that resolves keeps its target. -/
theorem resolve_move (among : Among document extended) {pointer : String} {slot : Nat}
    (resolved : (document.compiler options registry).binder.resolve pointer = .ok slot) :
    (extended.compiler options registry).binder.resolve pointer =
      .ok (document.move extended slot) := by
  unfold Binder.resolve at resolved ⊢
  split at resolved
  next rooted =>
    cases resolved
    exact if_pos rooted
  next named =>
    rw [if_neg named]
    split at resolved
    next own found =>
      cases resolved
      obtain ⟨segment, last, there⟩ := Option.bind_eq_some_iff.mp found
      obtain ⟨place, listed, rfl⟩ := (index_eq_some among.distinct).mp there
      rw [Entries.names, List.getElem?_map] at listed
      obtain ⟨⟨name, node⟩, stands, same⟩ := Option.map_eq_some_iff.mp listed
      obtain ⟨other, moved, stays⟩ := among.definition stands
      have indexed : (extended.compiler options registry).binder.index.get?
          (Pointer.segmentName segment) = some (other + 1) := by
        refine (index_eq_some among.further).mpr ⟨other, ?_, rfl⟩
        rw [Entries.names, List.getElem?_map, stays]
        exact congrArg some same
      rw [last, Option.bind_some, indexed, moved]
    next => cases resolved

/-- Among further definitions a node compiles to the same generator over other slots. -/
theorem compile_move (among : Among document extended) (closures : registry.Closures)
    (negations : SameNegations document extended) {node : Node}
    (inside : ∀ part : Node, part.Part node → Part part document) {generator other : Generator}
    (compiled : (document.compiler options registry).compile node = .ok generator)
    (further : (extended.compiler options registry).compile node = .ok other) :
    other = generator.renumber (document.move extended) := by
  have agree : Except.Agree (Compiler.Renumbers (document.move extended) fun _ _ => True)
      ((document.compiler options registry).compile node)
      ((extended.compiler options registry).compile node) := by
    refine Compiler.compile_renumber rfl rfl closures (fun pointer below => ?_)
      fun negated source below => ?_
    · obtain ⟨reference, own⟩ := Compiler.compile_part below compiled
      rw [Compiler.compile_reference] at own
      obtain ⟨slot, resolved, -⟩ := Except.bind_eq_ok.mp own
      rw [resolved, resolve_move among resolved]
      exact .ok ⟨rfl, trivial⟩
    · -- Both validators exist, so they only have to judge alike.
      obtain ⟨filter, own⟩ := Compiler.compile_part below compiled
      obtain ⟨otherFilter, twin⟩ := Compiler.compile_part below further
      obtain ⟨validator, found, rfl⟩ := Compiler.negation_eq_ok own
      obtain ⟨otherValidator, otherFound, rfl⟩ := Compiler.negation_eq_ok twin
      have judges := negations negated source (inside _ below) validator otherValidator found
        otherFound
      refine Eq.trans twin (Eq.trans ?_ own.symm)
      simp only [judges]
      rfl
  rw [compiled, further] at agree
  cases agree with
  | ok renumbers => exact renumbers.renumbered

variable {slots further : Slots}

theorem bodies_move (among : Among document extended) (closures : registry.Closures)
    (negations : SameNegations document extended)
    (compiled : document.slots options registry = .ok slots)
    (extendedCompiled : extended.slots options registry = .ok further) {slot : Nat}
    {body : Generator} (found : slots.bodies[slot]? = some body) :
    further.bodies[document.move extended slot]? =
      some (body.renumber (document.move extended)) := by
  obtain ⟨root, bodies, own, all, rfl⟩ := (slots_eq_ok among.distinct).mp compiled
  obtain ⟨otherRoot, others, twin, allTwins, rfl⟩ := (slots_eq_ok among.further).mp extendedCompiled
  cases slot with
  | zero =>
    cases found
    rw [among.root] at twin
    exact congrArg some (compile_move among closures negations (fun _ below => .inl below) own twin)
  | succ place =>
    have there : bodies[place]? = some body := found
    obtain ⟨node, listed, compiles⟩ :=
      Generator.exists_left_of_getElem? (Except.mapM_eq_ok all) there
    rw [Entries.values, List.getElem?_map] at listed
    obtain ⟨⟨name, node⟩, stands, rfl⟩ := Option.map_eq_some_iff.mp listed
    obtain ⟨other, moved, stays⟩ := among.definition stands
    have value : (Entries.values extended.definitions)[other]? = some node := by
      rw [Entries.values, List.getElem?_map, stays]
      rfl
    obtain ⟨twin, placed, compilesTwin⟩ :=
      Generator.exists_left_of_getElem? (Except.mapM_eq_ok allTwins).flip value
    have within : ∀ part : Node, part.Part node → Part part document :=
      fun part below => .inr ⟨_, List.mem_of_getElem? stands, below⟩
    rw [moved, List.getElem?_cons_succ, placed,
      compile_move among closures negations within compiles compilesTwin]

theorem among_of_insert {name : String} {node : Node} (root : extended.root = document.root)
    (definitions : extended.definitions = Entries.insert name node document.definitions)
    (sorted : document.definitions.Sorted) (fresh : name ∉ Entries.names document.definitions) :
    Among document extended where
  root := root
  distinct := sorted.nodup_names
  further := definitions ▸ (sorted.insert name node).nodup_names
  definitions := by
    intro entry present
    rw [definitions]
    refine Entries.mem_insert_of_mem present ?_
    rintro rfl
    exact fresh (List.mem_map_of_mem present)

end Document

/-! ## Samplers -/

namespace Sampler

/-- The same draws come out of renumbered slots. -/
theorem draw_eq_of_renumber {sampler twin : Sampler} {number : Nat → Nat}
    (options : twin.options = sampler.options)
    (bound : ∀ body ∈ sampler.slots.bodies, body.Bound sampler.slots.bodies)
    (moved : ∀ slot body, sampler.slots.bodies[slot]? = some body →
      twin.slots.bodies[number slot]? = some (body.renumber number))
    (own : sampler.entry.Bound sampler.slots.bodies)
    (entry : twin.entry = sampler.entry.renumber number) (source : Source) :
    sampler.draw source = twin.draw source := by
  unfold draw
  rw [options, entry, Generator.draw_renumber bound moved own]

/-- One more definition that nothing refers to changes no draw, whatever slots it moves. References
outside negations cannot lead to it, since the document compiles without it. -/
theorem samples_addDefinition {members definitions : Entries Json} {name : String}
    {definition : Json} (wellFormed : (Json.obj members).WellFormed)
    (given : Document.definitionsOf (.obj members) = .obj definitions)
    (fresh : name ∉ Entries.names definitions) {document further : Document}
    (parsed : Document.parse (.obj members) = .ok document)
    (parsedFurther : Document.parse (.obj (Entries.insert "definitions"
      (.obj (Entries.insert name definition definitions)) members)) = .ok further)
    (negations : document.SameNegations further) {options : Options} {registry : Registry}
    (closures : registry.Closures) {sampler extended : Sampler}
    (compiled : compile (.obj members) options registry = .ok sampler)
    (extendedCompiled : compile (.obj (Entries.insert "definitions"
      (.obj (Entries.insert name definition definitions)) members)) options registry = .ok extended)
    (source : Source) (count : Nat) :
    sampler.samples source count = extended.samples source count ∧
      sampler.hoisted.samples source count = extended.hoisted.samples source count := by
  obtain ⟨_, same, slots, root, rfl⟩ := compile_eq_ok.mp compiled
  cases parsed.symm.trans same
  obtain ⟨_, same, furtherSlots, furtherRoot, options⟩ := compile_eq_ok.mp extendedCompiled
  cases parsedFurther.symm.trans same
  obtain ⟨kept, node, inserted⟩ := Document.parse_addDefinition wellFormed.1 given parsed parsedFurther
  have names := Document.names_definitions parsed given
  have sorted := Document.sorted_definitions wellFormed parsed
  have among := Document.among_of_insert kept inserted sorted (names ▸ fresh)
  have bound := Document.bodies_bound among.distinct closures slots
  have moved := fun slot body => @Document.bodies_move document further sampler.options registry
    sampler.slots extended.slots among closures negations slots furtherSlots slot body
  have own := bound _ (List.mem_of_getElem? root)
  have entry : extended.entry = sampler.entry.renumber (document.move further) := by
    have there := moved rootSlot sampler.entry root
    exact Option.some.inj (furtherRoot.symm.trans there)
  refine ⟨samples_congr (draw_eq_of_renumber options bound moved own entry) source count, ?_⟩
  have hoisted : ∀ source, sampler.hoisted.draw source = extended.hoisted.draw source := by
    refine draw_eq_of_renumber options bound moved (fun pointer slot refers => ?_) ?_
    · cases refers with
      | map refers => exact own pointer slot refers
    · show Generator.map extended.entry (hoist extended.options.keys) = _
      rw [entry, options]
      rfl
  exact samples_congr hoisted source count

/-- Texts and values that are no texts, the texts by a definition. -/
def splitMembers : Entries Json :=
  [("definitions", .obj [("m", .obj [("type", .str "string")])]),
    ("items", .obj [("anyOf", .arr [.obj [("$ref", .str "#/definitions/m")],
      .obj [("not", .obj [("$ref", .str "#/definitions/m")])]])]),
    ("type", .str "array")]

/-- The same with a definition in front. -/
def splitFurther : Json :=
  .obj (Entries.insert "definitions" (.obj (Entries.insert "a" (.obj [("type", .str "null")])
    [("m", .obj [("type", .str "string")])])) splitMembers)

def splitRoot : Node :=
  .list (.anyOf [.reference "#/definitions/m",
    .negation (.reference "#/definitions/m") (.obj [("$ref", .str "#/definitions/m")])]) {}

def splitDocument : Document :=
  ⟨splitRoot, [("m", .text {})], .obj [("m", .obj [("type", .str "string")])]⟩

def splitExtended : Document :=
  ⟨splitRoot, [("a", .null), ("m", .text {})],
    .obj [("a", .obj [("type", .str "null")]), ("m", .obj [("type", .str "string")])]⟩

theorem split_negations {negated : Node} {source : Json}
    (present : Document.Part (.negation negated source) splitDocument) :
    source = .obj [("$ref", .str "#/definitions/m")] := by
  rcases present with below | ⟨entry, listed, below⟩
  · obtain same | ⟨union, inside, below⟩ := below.cases
    · cases same
    cases inside
    obtain same | ⟨alternative, inside, below⟩ := below.cases
    · cases same
    cases inside with
    | anyOf member =>
      rcases List.mem_pair.mp member with rfl | rfl
      all_goals obtain same | ⟨_, inside, -⟩ := below.cases
      · cases same
      · cases inside
      · cases same
        rfl
      · cases inside
  · cases List.mem_singleton.mp listed
    obtain same | ⟨_, inside, -⟩ := below.cases
    · cases same
    · cases inside

/-- The reference leads to a schema that leads nowhere. -/
theorem split_grounded : Schema.Grounded [("m", .obj [("type", .str "string")])]
    (.obj [("$ref", .str "#/definitions/m")]) := by
  have named : Schema.definitionName? "#/definitions/m" = some "m" := by decide +kernel
  have leads {inner : Json} (applies : Schema.Applies [("m", .obj [("type", .str "string")])]
      (.obj [("$ref", .str "#/definitions/m")]) inner) : inner = .obj [("type", .str "string")] :=
    (Option.some.inj (applies.of_reference rfl named)).symm
  have ends {inner : Json} : ¬ Schema.Applies [("m", .obj [("type", .str "string")])]
      (.obj [("type", .str "string")]) inner := by
    rintro ((⟨-, beside⟩ | ⟨stated, -, -⟩) | ⟨-, below⟩)
    · exact Schema.not_beside (by decide) beside
    · cases stated
    · exact Schema.not_below (by decide) below
  refine .of_closed (fun schema => schema = .obj [("$ref", .str "#/definitions/m")] ∨
      schema = .obj [("type", .str "string")])
    (fun schema => if (schema.get? "$ref").isSome then 1 else 0) (.inl rfl) ?_ ?_ ?_
  · rintro outer inner (rfl | rfl) applies
    · exact .inr (leads applies)
    · exact absurd applies ends
  · rintro outer (rfl | rfl) pointer stated
    · cases stated
      exact ⟨"m", named, List.mem_singleton.mpr rfl⟩
    · cases stated
  · rintro outer inner (rfl | rfl) turns
    · rw [leads (.turns turns)]
      decide
    · exact absurd (.turns turns) ends

/-- The samplers of both documents, whose reference is to different slots. -/
def splitSampler (definitions : Entries Json) (others : List (String × Generator)) (slot : Nat) :
    Sampler :=
  let source := Json.obj [("$ref", .str "#/definitions/m")]
  let validator : Validator :=
    ⟨.obj [("allOf", .arr [source]), ("definitions", .obj definitions)]⟩
  let filter := Generator.filter (.arbitrary 2 4 16) ("not " ++ source.compact)
    fun value => !validator.isValid value
  let root := Generator.array
    (.choice "structural.any_of" [.reference "#/definitions/m" slot, filter] none) 0 8 false
  ⟨root, ⟨"#" :: Entries.names others, root :: Entries.values others⟩, {}⟩

theorem split_samples_addDefinition :
    (Json.obj splitMembers).WellFormed ∧ Document.parse (.obj splitMembers) = .ok splitDocument ∧
      Document.parse splitFurther = .ok splitExtended ∧
      splitDocument.SameNegations splitExtended ∧
      ∃ sampler extended, compile (.obj splitMembers) {} [] = .ok sampler ∧
        compile splitFurther {} [] = .ok extended ∧
        sampler.slots.names = ["#", "m"] ∧ extended.slots.names = ["#", "a", "m"] ∧
        ∀ source count, sampler.samples source count = extended.samples source count ∧
          sampler.hoisted.samples source count = extended.hoisted.samples source count := by
  have wellFormed : (Json.obj splitMembers).WellFormed := by
    refine ⟨Entries.sorted_iff_names.mpr (by decide +kernel), ?_⟩
    simp [splitMembers, Json.WellFormed, Json.WellFormedMembers, Json.WellFormedItems,
      Entries.Sorted]
  have fresh : "a" ∉ Entries.names [("m", Json.obj [("type", .str "string")])] := by decide
  have negations : splitDocument.SameNegations splitExtended := by
    refine Document.sameNegations_of_grounded rfl rfl fresh fun negated source present => ?_
    exact split_negations present ▸ split_grounded
  have closures : Registry.Closures [] := nofun
  have parsed : Document.parse (.obj splitMembers) = .ok splitDocument := rfl
  have parsedFurther : Document.parse splitFurther = .ok splitExtended := rfl
  have compiled : compile (.obj splitMembers) {} [] =
      .ok (splitSampler [("m", .obj [("type", .str "string")])] [("m", .text 16)] 1) := rfl
  have compiledFurther : compile splitFurther {} [] =
      .ok (splitSampler [("a", .obj [("type", .str "null")]), ("m", .obj [("type", .str "string")])]
        [("a", .constant .null), ("m", .text 16)] 2) := rfl
  exact ⟨wellFormed, parsed, parsedFurther, negations, _, _, compiled, compiledFurther, rfl, rfl,
    samples_addDefinition wellFormed rfl fresh parsed parsedFurther negations closures compiled
      compiledFurther⟩

end Sampler

end SchemaSampler
