import SchemaSampler.Proofs.Compile.Order
import SchemaSampler.Proofs.Hoist.OtherKeys
import SchemaSampler.Proofs.Schema.Extension

/-!
# The choice of synthetic keys

If a schema does not use the synthetic keys and no draw can hit one, it does not matter which they
are. Under two choices every node compiles to generators whose values hoist alike or fails with the
same error, and so do the bodies in all slots; draws then go through the same references.

Results:
1. `Compiler.compile_alike`: a node under two choices of keys.
2. `Document.slots_alike`: the slots of a document.
3. `Generator.drawWithin_simulates`: draws through references, by induction on the budget.
4. `Sampler.samples_rekeyed`: hoisted draws do not show the choice.
-/

namespace SchemaSampler

open Draw

/-! ## Compiled nodes -/

/-- No key is a name or in a fixed value of the schema, nor drawn from a pattern for names. -/
structure Document.Hides (document : Document) (limits : Limits) (keys : SyntheticKeys) : Prop where
  avoids : document.Avoids keys
  patterns : ∀ spec : ObjectSpec Node, document.Part (.object spec) → ∀ entry ∈ spec.patterns,
    ∀ synthesizer, Synthesizer.ofPattern? entry.1 limits.maxRepeat = some synthesizer →
    ∀ source, keys.contains (synthesizer.draw source).1 = false

namespace Compiler

variable {compiler twin : Compiler} (rekeys : compiler.options.Rekeys twin.options)

include rekeys

theorem arbitrary_rekeyed : twin.arbitrary = compiler.arbitrary := by
  rw [arbitrary, arbitrary, rekeys.limits]

theorem negation_alike (definitions : twin.definitions = compiler.definitions) (source : Json) :
    Except.Agree (Generator.Alike compiler.options twin.options) (compiler.negation source)
      (twin.negation source) := by
  have same : twin.negation source = compiler.negation source := by
    unfold negation negatedSchema
    rw [definitions, arbitrary_rekeyed rekeys]
  rw [same]
  refine Except.Agree.same fun generator built => ?_
  obtain ⟨validator, -, rfl⟩ := negation_eq_ok built
  exact Generator.filter_alike rekeys _ _ _ _

theorem basic_alike {node : Node} (basic : node.IsBasic) (avoids : node.Avoids compiler.options.keys)
    (avoidsTwin : node.Avoids twin.options.keys) :
    Except.Agree (Generator.Alike compiler.options twin.options) (compiler.compile node)
      (twin.compile node) := by
  rw [compile_basic_eq basic rekeys.others]
  refine Except.Agree.same fun generator built => ?_
  exact Generator.basic_alike rekeys.limits (compile_isBasic basic built) fun value yielded =>
    ⟨compile_basic_freeOf avoids basic built yielded,
      compile_basic_freeOf avoidsTwin basic built yielded⟩

/-- The records of an object whose names are not synthetic. -/
theorem record_alike {spec : ObjectSpec Node}
    (avoids : (Node.object spec).Avoids compiler.options.keys)
    (avoidsTwin : (Node.object spec).Avoids twin.options.keys)
    (apart : ∀ entry ∈ spec.patterns, ∀ synthesizer,
      Synthesizer.ofPattern? entry.1 compiler.options.limits.maxRepeat = some synthesizer →
      ∀ source, compiler.options.keys.contains (synthesizer.draw source).1 = false ∧
        twin.options.keys.contains (synthesizer.draw source).1 = false)
    {pieces : ObjectPieces compiler (compiler.parts spec)}
    {others : ObjectPieces twin (twin.parts spec)} (built : pieces.Compiled)
    (shared : pieces.Related (Generator.Alike compiler.options twin.options) others)
    (keys : List String) :
    Generator.Alike compiler.options twin.options (pieces.record keys) (others.record keys) := by
  have ordinary {keys : SyntheticKeys} (avoids : (Node.object spec).Avoids keys) {name : String}
      (known : name ∈ pieces.reserved) : keys.contains name = false := by
    cases avoids with
    | object properties required =>
      rcases (ObjectPieces.mem_reserved built).mp known with declared | wanted
      · obtain ⟨entry, present, rfl⟩ := List.mem_map.mp declared
        obtain ⟨source, listed, rfl⟩ := List.mem_map.mp present
        exact properties source listed
      · exact required name wanted
  have reserved : pieces.reserved = others.reserved := Entries.names_eq_of_named shared.fields
  refine Generator.record_alike (List.rel_append ?_ (List.rel_append ?_ ?_))
  · refine (chosen_named shared.fields keys).imp fun field other both => ?_
    obtain ⟨name, field⟩ := field
    obtain ⟨_, other⟩ := other
    obtain ⟨⟨rfl, alike⟩, known⟩ := both
    exact Generator.sameField_ordinary rekeys (ordinary avoids known) (ordinary avoidsTwin known) alike
  · rw [← shared.matchers, ← reserved]
    have extras := shared.additional
    generalize pieces.reserved = reserved
    generalize pieces.additional = additional at extras ⊢
    generalize others.additional = other at extras ⊢
    cases extras with
    | none => exact .nil
    | some holds => exact .cons (Generator.sameField_additional rekeys holds _ _) .nil
  · rw [← Entries.isEmpty_of_forall₂ shared.groups]
    split
    · exact .nil
    · refine .cons (Generator.sameField_patterns rekeys shared.groups fun group present => ?_) .nil
      obtain ⟨_, _, listed, -, -⟩ := ObjectParts.mem_groups built.groups present
      obtain ⟨entry, declared, same⟩ := List.mem_map.mp listed
      rw [← (Prod.mk.inj same).1]
      exact apart entry declared

/-- Under two choices of keys that a node does not use, it compiles to generators of alike values. -/
theorem compile_alike {root : Node} (binder : twin.binder = compiler.binder)
    (definitions : twin.definitions = compiler.definitions)
    (plain : ∀ name, ¬ Node.Part (.custom name) root)
    (avoids : root.Avoids compiler.options.keys) (avoidsTwin : root.Avoids twin.options.keys)
    (apart : ∀ spec : ObjectSpec Node, Node.Part (.object spec) root → ∀ entry ∈ spec.patterns,
      ∀ synthesizer,
      Synthesizer.ofPattern? entry.1 compiler.options.limits.maxRepeat = some synthesizer →
      ∀ source, compiler.options.keys.contains (synthesizer.draw source).1 = false ∧
        twin.options.keys.contains (synthesizer.draw source).1 = false) :
    Except.Agree (Generator.Alike compiler.options twin.options) (compiler.compile root)
      (twin.compile root) := by
  have arbitrary : Generator.Alike compiler.options twin.options compiler.arbitrary
      twin.arbitrary := by
    rw [arbitrary_rekeyed rekeys]
    exact Generator.arbitrary_alike rekeys _ _
  refine compile_agree {
    limits := rekeys.limits
    leaf := fun node leaf below => ?_
    arbitrary
    array := fun inner => Generator.array_alike rekeys inner
    tuple := Generator.tuple_alike
    choice := fun each => Generator.choice_alike rekeys each
    merged := fun each => Generator.merged_alike rekeys (memberFields_named each 0)
    record := fun spec below _ _ built shared keys => record_alike rekeys (avoids.part below)
      (avoidsTwin.part below) (apart spec below) built shared keys }
  cases node with
  | reference pointer =>
    rw [compile_reference, compile_reference, binder]
    refine Except.Agree.bind_same fun slot _ => .ok fun depth expand twin expands => ?_
    unfold Generator.Pairs
    rw [Generator.drawWith, Generator.drawWith]
    exact expands slot
  | negation negated source => exact negation_alike rekeys definitions source
  | custom name => exact absurd below (plain name)
  | anything => exact .ok arbitrary
  | list | tuple | object | anyOf | oneOf | allOf => exact leaf.elim
  | _ => exact basic_alike rekeys trivial (avoids.part below) (avoidsTwin.part below)

end Compiler

/-! ## Documents -/

namespace Document

variable {document : Document} {options twinOptions : Options} (rekeys : options.Rekeys twinOptions)
  (hides : document.Hides options.limits options.keys)
  (hidesTwin : document.Hides options.limits twinOptions.keys)
  (plain : ∀ name, ¬ document.Part (.custom name))

include rekeys hides hidesTwin plain

theorem node_alike {node : Node} (inside : ∀ part : Node, part.Part node → document.Part part)
    (avoids : node.Avoids options.keys) (avoidsTwin : node.Avoids twinOptions.keys)
    (registry : Registry) : Except.Agree (Generator.Alike options twinOptions)
      ((document.compiler options registry).compile node)
      ((document.compiler twinOptions registry).compile node) :=
  @Compiler.compile_alike (document.compiler options registry)
    (document.compiler twinOptions registry) rekeys node rfl rfl
    (fun name below => plain name (inside _ below)) avoids avoidsTwin
    fun spec below entry present synthesizer found source =>
      ⟨hides.patterns spec (inside _ below) entry present synthesizer found source,
        hidesTwin.patterns spec (inside _ below) entry present synthesizer found source⟩

/-- The slots of a document hold generators of alike values. -/
theorem slots_alike (distinct : (Entries.names document.definitions).Nodup) (registry : Registry) :
    Except.Agree
      (fun slots others : Slots =>
        List.Forall₂ (Generator.Alike options twinOptions) slots.bodies others.bodies)
      (document.slots options registry) (document.slots twinOptions registry) := by
  rw [slots_eq distinct, slots_eq distinct]
  have root := node_alike rekeys hides hidesTwin plain (fun _ below => .inl below)
    hides.avoids.root hidesTwin.avoids.root registry
  refine root.bind fun body other _ first => ?_
  refine Except.Agree.bind (Except.Agree.mapM fun node present => ?_)
    fun bodies others _ following => .ok (.cons first following)
  obtain ⟨entry, listed, rfl⟩ := List.mem_map.mp present
  exact node_alike rekeys hides hidesTwin plain (fun _ below => .inr ⟨entry, listed, below⟩)
    (hides.avoids.definitions entry listed) (hidesTwin.avoids.definitions entry listed) registry

end Document

/-! ## Draws -/

namespace Generator

variable {options twinOptions : Options} {bodies others : Bodies}

theorem bodyIn_agree {related : Generator → Generator → Prop}
    (alike : List.Forall₂ related bodies others) (slot : Nat) :
    Except.Agree related (bodyIn bodies slot) (bodyIn others slot) := by
  unfold bodyIn
  cases found : bodies[slot]? with
  | none =>
    have absent : others[slot]? = none := by
      rw [List.getElem?_eq_none_iff] at found ⊢
      exact alike.length_eq ▸ found
    rw [absent]
    exact .error
  | some body =>
    obtain ⟨other, there, holds⟩ := exists_left_of_getElem? alike.flip found
    rw [there]
    exact .ok holds

/-- Both draws follow the same references, as far as the budget allows. -/
theorem drawWithin_simulates (limits : options.limits = twinOptions.limits)
    (alike : List.Forall₂ (Alike options twinOptions) bodies others) (budget : Nat) {depth : Nat}
    {related : Json → Json → Prop} {generator other : Generator}
    (relates : Relates options twinOptions related generator other) :
    Simulates depth related (drawWithin options bodies budget generator)
      (drawWithin twinOptions others budget other) := by
  induction budget generalizing depth related generator other with
  | zero =>
    refine relates depth _ _ fun slot => ?_
    rw [limits]
    exact fail_simulates _
  | succ budget ih =>
    refine relates depth _ _ fun slot => ?_
    exact bind_simulates (ofExcept_simulates (bodyIn_agree alike slot)) fun _ _ inner =>
      deeper_simulates (ih inner)

/-- Hoisting takes out what differs. -/
theorem hoisted_relates {generator other : Generator}
    (alike : Alike options twinOptions generator other) :
    Relates options twinOptions Eq (.map generator (hoist options.keys))
      (.map other (hoist twinOptions.keys)) := by
  intro depth expand twin expands
  unfold Pairs
  rw [drawWith, drawWith]
  exact bind_simulates (alike depth expand twin expands) fun _ _ same => pure_simulates same

end Generator

/-! ## Samplers -/

namespace Sampler

/-- Samplers of one schema whose draws hoist alike. -/
structure Alike (sampler twin : Sampler) : Prop where
  limits : sampler.options.limits = twin.options.limits
  entry : Generator.Alike sampler.options twin.options sampler.entry twin.entry
  bodies : List.Forall₂ (Generator.Alike sampler.options twin.options) sampler.slots.bodies
    twin.slots.bodies

theorem Alike.draw_hoisted {sampler twin : Sampler} (alike : sampler.Alike twin)
    (source : Source) : sampler.hoisted.draw source = twin.hoisted.draw source := by
  have simulates : Simulates 0 Eq
      (Generator.drawWithin sampler.options sampler.slots.bodies sampler.options.limits.maxDepth
        sampler.hoisted.entry)
      (Generator.drawWithin twin.options twin.slots.bodies sampler.options.limits.maxDepth
        twin.hoisted.entry) :=
    Generator.drawWithin_simulates alike.limits alike.bodies _
      (Generator.hoisted_relates alike.entry)
  obtain ⟨result, other, rest, ran, ranTwin, agree⟩ := simulates source
  have same : result = other := by
    cases agree with
    | ok same => rw [same]
    | error => rfl
  rw [alike.limits] at ranTwin
  have own : sampler.hoisted.draw source = (result, rest) := congrArg (Prod.map id Cursor.source) ran
  have others : twin.hoisted.draw source = (other, rest) :=
    congrArg (Prod.map id Cursor.source) ranTwin
  rw [own, others, same]

theorem compile_alike {schema : Json} {options twinOptions : Options}
    (rekeys : options.Rekeys twinOptions) (wellFormed : schema.WellFormed)
    (plain : ∀ document, Document.parse schema = .ok document → ∀ name,
      ¬ document.Part (.custom name))
    (hides : ∀ document, Document.parse schema = .ok document →
      document.Hides options.limits options.keys ∧ document.Hides options.limits twinOptions.keys)
    (registry : Registry) :
    Except.Agree Alike (compile schema options registry) (compile schema twinOptions registry) := by
  unfold compile
  cases parsed : Document.parse schema with
  | error fault => exact .error
  | ok document =>
    obtain ⟨own, twin⟩ := hides document parsed
    have names := (Document.sorted_definitions wellFormed parsed).nodup_names
    have slots := Document.slots_alike rekeys own twin (plain document parsed) names registry
    refine slots.bind fun slots others _ bodies => ?_
    refine (Generator.bodyIn_agree bodies rootSlot).bind fun entry other _ root => ?_
    exact .ok ⟨rekeys.limits, root, bodies⟩

/-- Two choices of synthetic keys that a schema hides cannot be told apart: compilation succeeds
under both or fails with the same error, and every sequence of hoisted draws gives the same values
and errors and leaves the same source. -/
theorem samples_rekeyed {schema : Json} (wellFormed : schema.WellFormed)
    (plain : ∀ document, Document.parse schema = .ok document → ∀ name,
      ¬ document.Part (.custom name)) {options : Options} {twinKeys : SyntheticKeys}
    (distinct : options.keys.Distinct) (distinctTwin : twinKeys.Distinct)
    (longer : options.keys.LongerThan options.limits.maxStringLength)
    (longerTwin : twinKeys.LongerThan options.limits.maxStringLength)
    (hides : ∀ document, Document.parse schema = .ok document →
      document.Hides options.limits options.keys ∧ document.Hides options.limits twinKeys)
    (registry : Registry) :
    Except.Agree
      (fun sampler twin : Sampler => ∀ source count,
        sampler.samples source count = twin.samples source count)
      (compileHoisted schema options registry)
      (compileHoisted schema { options with keys := twinKeys } registry) := by
  have rekeys : options.Rekeys { options with keys := twinKeys } :=
    ⟨rfl, distinct, distinctTwin, longer, longerTwin⟩
  refine (compile_alike rekeys wellFormed plain hides registry).bind fun sampler twin _ alike => ?_
  exact .ok (samples_congr alike.draw_hoisted)

/-- Truth values beside a null, and the last of both under a drawn key. -/
def mixedSchema : Json :=
  .obj [("additionalProperties", .obj [("type", .str "boolean")]),
    ("patternProperties", .obj [("^z$",
      .obj [("allOf", .arr [.obj [("type", .str "null")], .obj [("type", .str "boolean")]])])]),
    ("properties", .obj [("a", .obj [("type", .str "null")])]), ("required", .arr [.str "a"])]

def mixedSpec : ObjectSpec Node where
  properties := [("a", .null)]
  required := ["a"]
  additional := .schema .boolean
  patterns := [("^z$", .allOf [.null, .boolean])]
  dependencies := []
  schemaDependencies := []

def mixedDocument : Document := ⟨.object mixedSpec, [], .obj []⟩

/-- Every container stands under its key. -/
def mixedSampler (keys : SyntheticKeys) : Sampler :=
  let merged := Generator.record
    [(keys.allOf, .record [("0000", .constant .null), ("0001", .boolean)])]
  let root := Generator.record [("a", .constant .null),
    (keys.additionalProperties, .dictionary (.text 16) .boolean 4 ["a"]
      [.sequence [.look .textStart, .literal ['z'], .look .textEnd]]),
    (keys.patternProperties, .record
      [("^z$", .dictionary (.pattern ⟨"^z$", .literal {} ['z']⟩) merged 4 ["a"] [])])]
  ⟨root, ⟨["#"], [root]⟩, { keys }⟩

def otherKeys : SyntheticKeys :=
  ⟨"other_additional_properties", "other_pattern_properties", "other_members_of_all"⟩

theorem mixed_compiled (keys : SyntheticKeys) :
    compileHoisted mixedSchema { keys } [] = .ok (mixedSampler keys).hoisted := by
  have sets : Compiler.propertySets [] (["a"] : List String).eraseDups
      ((Entries.names ((mixedDocument.compiler { keys } []).compileEntries [("a", .null)])).filter
        fun key => !(["a"] : List String).eraseDups.contains key) = [[]] :=
    Compiler.propertySets_nil rfl
  have root : (mixedDocument.compiler { keys } []).compile mixedDocument.root =
      .ok (mixedSampler keys).entry := by
    show Compiler.object _ _ = _
    dsimp only [Compiler.object]
    rw [sets]
    rfl
  exact compileHoisted_of_root rfl root

theorem mixed_part {part : Node} (below : mixedDocument.Part part) :
    part = .object mixedSpec ∨ part = .null ∨ part = .boolean ∨ part = .allOf [.null, .boolean] := by
  rcases below with below | ⟨_, listed, -⟩
  · obtain same | ⟨value, inside, below⟩ := below.cases
    · exact .inl same
    cases inside with
    | property present =>
      cases List.mem_singleton.mp present
      obtain same | ⟨_, inside, -⟩ := below.cases
      · exact .inr (.inl same)
      · cases inside
    | additional same =>
      cases same
      obtain same | ⟨_, inside, -⟩ := below.cases
      · exact .inr (.inr (.inl same))
      · cases inside
    | patterned present =>
      cases List.mem_singleton.mp present
      obtain same | ⟨member, inside, below⟩ := below.cases
      · exact .inr (.inr (.inr same))
      cases inside with
      | allOf listed =>
        rcases List.mem_pair.mp listed with rfl | rfl
        all_goals obtain same | ⟨_, inside, -⟩ := below.cases
        · exact .inr (.inl same)
        · cases inside
        · exact .inr (.inr (.inl same))
        · cases inside
  · cases listed

theorem mixed_hides {keys : SyntheticKeys} (property : keys.contains "a" = false)
    (drawn : keys.contains "z" = false) : mixedDocument.Hides {} keys where
  avoids := by
    refine ⟨.object ?_ ?_ ?_ ?_ ?_, nofun⟩
    · exact fun entry present => List.mem_singleton.mp present ▸ property
    · exact fun name present => List.mem_singleton.mp present ▸ property
    · exact fun entry present => List.mem_singleton.mp present ▸ .null
    · rintro node ⟨⟩
      exact .boolean
    · rintro entry present
      cases List.mem_singleton.mp present
      refine .allOf fun member listed => ?_
      rcases List.mem_pair.mp listed with rfl | rfl
      · exact .null
      · exact .boolean
  patterns := by
    intro spec below entry present synthesizer found source
    rcases mixed_part below with same | same | same | same <;> cases same
    cases List.mem_singleton.mp present
    cases found
    exact drawn

/-- Raw draws have other members in another order; hoisted ones are the same. -/
theorem mixed_samples_rekeyed :
    mixedSchema.WellFormed ∧ Document.parse mixedSchema = .ok mixedDocument ∧
      mixedDocument.Hides {} {} ∧ mixedDocument.Hides {} otherKeys ∧
      compileHoisted mixedSchema {} [] = .ok (mixedSampler {}).hoisted ∧
      compileHoisted mixedSchema { keys := otherKeys } [] = .ok (mixedSampler otherKeys).hoisted ∧
      ((mixedSampler {}).draw (.cycle #[0x30000000])).1 =
        .ok (.obj [("__jsonalchemy_additional_properties__", .obj []),
          ("__jsonalchemy_pattern_properties__", .obj [("^z$", .obj [])]), ("a", .null)]) ∧
      ((mixedSampler otherKeys).draw (.cycle #[0x30000000])).1 =
        .ok (.obj [("a", .null), ("other_additional_properties", .obj []),
          ("other_pattern_properties", .obj [("^z$", .obj [])])]) ∧
      ∀ source count, (mixedSampler {}).hoisted.samples source count =
        (mixedSampler otherKeys).hoisted.samples source count := by
  have wellFormed : mixedSchema.WellFormed := by
    refine ⟨Entries.sorted_iff_names.mpr (by decide +kernel), ?_⟩
    simp [Json.WellFormed, Json.WellFormedMembers, Json.WellFormedItems, Entries.Sorted]
  have parsed : Document.parse mixedSchema = .ok mixedDocument := rfl
  have distinct : SyntheticKeys.Distinct {} := ⟨by decide, by decide, by decide⟩
  have distinctTwin : otherKeys.Distinct := ⟨by decide, by decide, by decide⟩
  have longer : SyntheticKeys.LongerThan {} 16 := ⟨by decide, by decide, by decide⟩
  have longerTwin : otherKeys.LongerThan 16 := ⟨by decide, by decide, by decide⟩
  have hides : mixedDocument.Hides {} {} := mixed_hides (by decide) (by decide)
  have hidesTwin : mixedDocument.Hides {} otherKeys := mixed_hides (by decide) (by decide)
  have plain : ∀ document, Document.parse mixedSchema = .ok document → ∀ name,
      ¬ document.Part (.custom name) := by
    intro document same name below
    cases parsed.symm.trans same
    rcases mixed_part below with same | same | same | same <;> cases same
  have hidden : ∀ document, Document.parse mixedSchema = .ok document →
      document.Hides {} {} ∧ document.Hides {} otherKeys := by
    intro document same
    cases parsed.symm.trans same
    exact ⟨hides, hidesTwin⟩
  have own := mixed_compiled {}
  have twin := mixed_compiled otherKeys
  have agree := @samples_rekeyed mixedSchema wellFormed plain {} otherKeys distinct distinctTwin
    longer longerTwin hidden []
  rw [own, twin] at agree
  cases agree with
  | ok samples =>
    exact ⟨wellFormed, parsed, hides, hidesTwin, own, twin, by cbv, by cbv, samples⟩

end Sampler

end SchemaSampler
