import SchemaSampler.Proofs.Compile.KeySets
import SchemaSampler.Proofs.Compile.Leaves
import SchemaSampler.Proofs.Compile.Order
import SchemaSampler.Proofs.Schema.Alternatives
import SchemaSampler.Proofs.Schema.Extension

/-!
# Faults of documents

Whether a node compiles is a matter of its own check and of its inner nodes. So a document compiles
if no node outside negations has a fault of its own, whether anything refers to the node or draws
its values. Else the error is that of one of the faults.

Results:
1. `Document.Fault`: what is wrong with a node itself.
2. `Compiler.fault_of_compile_eq_error`: a node fails for an inner node or for its own fault.
3. `Compiler.compile_ne_ok_of_fault`: a node with a fault does not compile.
4. `Document.slots_iff_no_fault`: the documents that compile, and the errors of the others.
-/

namespace SchemaSampler

/-- What is wrong with a node of the document itself, whatever its inner nodes. -/
inductive Document.Fault (document : Document) (options : Options) (registry : Registry) :
    Node → SampleError → Prop
  /-- Neither the root nor a definition has the pointer. -/
  | reference {pointer : String} : (∀ slot, ¬ document.Targets pointer slot) →
      Fault document options registry (.reference pointer) (.unresolvedReference pointer)
  | custom {name : String} : Entries.get? registry name = none →
      Fault document options registry (.custom name) (.unknownGenerator name)
  | integerRange {bounds : NumericBounds} {reason : InvalidReason} :
      bounds.integerRange = .error reason →
      Fault document options registry (.integer bounds) (.invalidSchema reason)
  | integerStep {bounds : NumericBounds} {range : Int × Int} {step : Binary64}
      {reason : InvalidReason} : bounds.integerRange = .ok range →
      bounds.multipleOf = some step → wholeStep step = .error reason →
      Fault document options registry (.integer bounds) (.invalidSchema reason)
  /-- No multiple of the least whole step lies in the range. -/
  | integerMultiples {bounds : NumericBounds} {low high : Int} {step whole : Binary64}
      {reason : InvalidReason} : bounds.integerRange = .ok (low, high) →
      bounds.multipleOf = some step → wholeStep step = .ok whole →
      Multiples.within (.ofInt low) (.ofInt high) whole = .error reason →
      Fault document options registry (.integer bounds) (.invalidSchema reason)
  | numberRange {bounds : NumericBounds} {reason : InvalidReason} :
      bounds.numberRange = .error reason →
      Fault document options registry (.number bounds) (.invalidSchema reason)
  | numberMultiples {bounds : NumericBounds} {low high step : Binary64} {reason : InvalidReason} :
      bounds.numberRange = .ok (low, high) → bounds.multipleOf = some step →
      Multiples.within low high step = .error reason →
      Fault document options registry (.number bounds) (.invalidSchema reason)
  | pattern {spec : TextSpec} {text : String} : spec.pattern = some text →
      Synthesizer.ofPattern? text options.limits.maxRepeat = none →
      Fault document options registry (.text spec) (.invalidSchema (.badPattern text))
  | provider {spec : TextSpec} {name : String} : spec.pattern = none → spec.faker = some name →
      Provider.find? name = none →
      Fault document options registry (.text spec) (.invalidSchema (.unsupportedProvider name))
  | catalog {spec : TextSpec} {name : String} : spec.pattern = none → spec.faker = some name →
      (Provider.find? name).isSome → options.limits.catalogSize = 0 →
      Fault document options registry (.text spec) (.invalidSchema (.emptyCatalog name))
  | lengths {items : Node} {bounds : ListBounds} {most : Nat} : bounds.maxItems = some most →
      most < bounds.minItems.getD 0 → Fault document options registry (.list items bounds)
        (.invalidSchema (.itemBounds (bounds.minItems.getD 0) most))
  /-- What the object needs is not all known, so it has no set of names. -/
  | names {spec : ObjectSpec Node} {name : String} : spec.Needs name → ¬ spec.Known name →
      Fault document options registry (.object spec)
        (Compiler.noPropertySet spec.required spec.dependencies)
  | matcher {spec : ObjectSpec Node} {text : String} : text ∈ Entries.names spec.patterns →
      Pattern.read? text = none →
      Fault document options registry (.object spec) (.invalidSchema (.badPattern text))
  | synthesizer {spec : ObjectSpec Node} {text : String} : text ∈ Entries.names spec.patterns →
      Synthesizer.ofPattern? text options.limits.maxRepeat = none →
      Fault document options registry (.object spec) (.invalidSchema (.badPattern text))
  | negation {negated : Node} {source : Json} :
      Validator.ofSchema? ((document.compiler options registry).negatedSchema source) = none →
      Fault document options registry (.negation negated source) .noValidator

/-! ## Checked construction -/

/-- A pointer is resolved to the slot that it targets. -/
theorem Document.resolve_of_targets {document : Document}
    (distinct : (Entries.names document.definitions).Nodup) {options : Options}
    {registry : Registry} {pointer : String} {slot : Nat} (targets : document.Targets pointer slot) :
    (document.compiler options registry).binder.resolve pointer = .ok slot := by
  unfold Binder.resolve
  cases targets with
  | empty => exact if_pos (.inl rfl)
  | root => exact if_pos (.inr rfl)
  | @definition _ _ segment place node nonempty further same plain stands =>
    have last : Binder.lastSegment? pointer = some segment :=
      Binder.lastSegment?_eq_some.mpr ⟨_, same, plain⟩
    have named : (Entries.names document.definitions)[place]? =
        some (Pointer.segmentName segment) := by
      rw [Entries.names, List.getElem?_map, stands]
      rfl
    have found : (document.compiler options registry).binder.index.get?
        (Pointer.segmentName segment) = some (place + 1) :=
      (index_eq_some distinct).mpr ⟨place, named, rfl⟩
    rw [if_neg (not_or.mpr ⟨nonempty, further⟩), last]
    dsimp only [Option.bind_some]
    rw [found]

theorem Binder.resolve_eq_error {binder : Binder} {pointer : String} {error : SampleError} :
    binder.resolve pointer = .error error ↔
      (∀ slot, binder.resolve pointer ≠ .ok slot) ∧ error = .unresolvedReference pointer := by
  have resolved (slot : Nat) : (Except.ok slot : Except SampleError Nat) = .error error ↔
      (∀ other, (Except.ok slot : Except SampleError Nat) ≠ .ok other) ∧
        error = .unresolvedReference pointer := by
    constructor
    · intro failed
      cases failed
    · rintro ⟨nowhere, -⟩
      exact absurd rfl (nowhere slot)
  unfold resolve
  split
  next => exact resolved _
  next =>
    split
    next => exact resolved _
    next =>
      constructor
      · intro failed
        cases failed
        refine ⟨fun slot found => ?_, rfl⟩
        cases found
      · rintro ⟨-, rfl⟩
        rfl

theorem Registry.find_eq_error {registry : Registry} {name : String} {error : SampleError} :
    registry.find name = .error error ↔
      Entries.get? registry name = none ∧ error = .unknownGenerator name := by
  unfold find
  cases Entries.get? registry name with
  | some generator => exact ⟨nofun, fun ⟨absent, _⟩ => nomatch absent⟩
  | none => exact ⟨fun failed => ⟨rfl, (Except.error.inj failed).symm⟩,
      fun ⟨_, same⟩ => congrArg _ same.symm⟩

namespace Catalog

/-- A catalog that draws at all has a value. -/
theorem distinctDraws_ne_nil (draw : Random String) (count : Nat) {values : List String}
    (stocked : 0 < count ∨ values ≠ []) (source : Source) :
    (distinctDraws draw count values source).1 ≠ [] := by
  induction count generalizing values source with
  | zero => exact stocked.resolve_left (Nat.lt_irrefl 0)
  | succ count ih =>
    refine ih (.inr ?_) _
    split
    next present =>
      rintro rfl
      cases present
    next => exact List.cons_ne_nil _ _

variable {name : String} {size : Nat} {seed : UInt64}

theorem materialize_ne_nil {values : List String} (drawn : materialize name size seed = .ok values) :
    values ≠ [] := by
  obtain ⟨provider, -, drawn⟩ := Except.bind_eq_ok.mp drawn
  split at drawn
  next => cases drawn
  next positive =>
    cases drawn
    rw [Ne, List.reverse_eq_nil_iff]
    exact distinctDraws_ne_nil _ _ (.inl (Nat.pos_of_ne_zero positive)) _

theorem materialize_eq_error {reason : InvalidReason} :
    materialize name size seed = .error reason ↔
      (Provider.find? name = none ∧ reason = .unsupportedProvider name) ∨
        ((Provider.find? name).isSome ∧ size = 0 ∧ reason = .emptyCatalog name) := by
  unfold materialize materializeFrom Provider.ofNameIn Provider.find?
  cases Provider.findIn? Provider.all name with
  | none =>
    show Except.error (InvalidReason.unsupportedProvider name) = .error reason ↔ _
    simp [eq_comm]
  | some provider =>
    show (if size = 0 then Except.error (InvalidReason.emptyCatalog name) else .ok _) =
      .error reason ↔ _
    split <;> simp [*, eq_comm]

end Catalog

namespace Generator

variable {bounds : NumericBounds} {reason : InvalidReason}

theorem integerOf_eq_error :
    integerOf bounds = .error reason ↔ bounds.integerRange = .error reason ∨
      ∃ low high step, bounds.integerRange = .ok (low, high) ∧ bounds.multipleOf = some step ∧
        (wholeStep step = .error reason ∨ ∃ whole, wholeStep step = .ok whole ∧
          Multiples.within (.ofInt low) (.ofInt high) whole = .error reason) := by
  constructor
  · intro failed
    rcases Except.bind_eq_error.mp failed with own | ⟨⟨low, high⟩, range, failed⟩
    · exact .inl own
    dsimp only at failed
    split at failed
    next => cases failed
    next step stepped =>
      refine .inr ⟨low, high, step, range, stepped, ?_⟩
      rcases Except.bind_eq_error.mp failed with own | ⟨whole, found, failed⟩
      · exact .inl own
      · rcases Except.bind_eq_error.mp failed with own | ⟨_, -, absent⟩
        · exact .inr ⟨whole, found, own⟩
        · cases absent
  · rintro (own | ⟨low, high, step, range, stepped, failed⟩)
    · exact Except.bind_eq_error.mpr (.inl own)
    · refine Except.bind_eq_error.mpr (.inr ⟨(low, high), range, ?_⟩)
      dsimp only
      rw [stepped]
      rcases failed with own | ⟨whole, found, own⟩
      · exact Except.bind_eq_error.mpr (.inl own)
      · exact Except.bind_eq_error.mpr (.inr ⟨whole, found, Except.bind_eq_error.mpr (.inl own)⟩)

theorem numberOf_eq_error :
    numberOf bounds = .error reason ↔ bounds.numberRange = .error reason ∨
      ∃ low high step, bounds.numberRange = .ok (low, high) ∧ bounds.multipleOf = some step ∧
        Multiples.within low high step = .error reason := by
  constructor
  · intro failed
    rcases Except.bind_eq_error.mp failed with own | ⟨⟨low, high⟩, range, failed⟩
    · exact .inl own
    dsimp only at failed
    split at failed
    next => cases failed
    next step stepped =>
      rcases Except.bind_eq_error.mp failed with own | ⟨_, -, absent⟩
      · exact .inr ⟨low, high, step, range, stepped, own⟩
      · cases absent
  · rintro (own | ⟨low, high, step, range, stepped, failed⟩)
    · exact Except.bind_eq_error.mpr (.inl own)
    · refine Except.bind_eq_error.mpr (.inr ⟨(low, high), range, ?_⟩)
      dsimp only
      rw [stepped]
      exact Except.bind_eq_error.mpr (.inl failed)

theorem enumerationOf_eq_error {label : String} {values : List Json} :
    enumerationOf label values = .error reason ↔ values = [] ∧ reason = .emptyEnum label := by
  unfold enumerationOf
  split
  next bare =>
    exact ⟨fun failed => ⟨List.isEmpty_iff.mp bare, (Except.error.inj failed).symm⟩,
      fun ⟨_, same⟩ => congrArg _ same.symm⟩
  next stocked => exact ⟨nofun, fun ⟨bare, _⟩ => absurd (List.isEmpty_iff.mpr bare) stocked⟩

theorem arrayOf_eq_error {items : Generator} {least most : Nat} {unique : Bool} :
    arrayOf items least most unique = .error reason ↔
      most < least ∧ reason = .itemBounds least most := by
  unfold arrayOf
  split
  next crossed =>
    exact ⟨fun failed => ⟨crossed, (Except.error.inj failed).symm⟩,
      fun ⟨_, same⟩ => congrArg _ same.symm⟩
  next ordered => exact ⟨nofun, fun ⟨crossed, _⟩ => absurd crossed ordered⟩

/-- A catalog fails for its provider or its size, and never for want of values. -/
theorem catalogOf_eq_error {name : String} {options : Options} :
    catalogOf name options = .error reason ↔
      (Provider.find? name = none ∧ reason = .unsupportedProvider name) ∨
        ((Provider.find? name).isSome ∧ options.limits.catalogSize = 0 ∧
          reason = .emptyCatalog name) := by
  rw [← Catalog.materialize_eq_error]
  constructor
  · intro failed
    rcases Except.bind_eq_error.mp failed with own | ⟨values, drawn, failed⟩
    · exact own
    · have bare := List.map_eq_nil_iff.mp (enumerationOf_eq_error.mp failed).1
      exact absurd bare (Catalog.materialize_ne_nil drawn)
  · exact fun failed => Except.bind_eq_error.mpr (.inl failed)

end Generator

namespace Compiler

variable {document : Document} {options : Options} {registry : Registry} {node : Node}
  {error : SampleError}

/-! ## Checks of nodes -/

theorem text_eq_error {compiler : Compiler} {spec : TextSpec} {reason : InvalidReason} :
    compiler.text spec = .error reason ↔
      (∃ text, spec.pattern = some text ∧
        Synthesizer.ofPattern? text compiler.options.limits.maxRepeat = none ∧
        reason = .badPattern text) ∨
      ∃ name, spec.pattern = none ∧ spec.faker = some name ∧
        Generator.catalogOf name compiler.options = .error reason := by
  unfold text
  split
  next text _ given =>
    rw [Generator.patternOf_eq_error]
    simp [given]
  next name absent given => simp [absent, given]
  next absent missing => simp [absent, missing]

theorem list_eq_error {compiler : Compiler} {bounds : ListBounds} {items : Generator} :
    compiler.list bounds items = .error error ↔
      ∃ most, bounds.maxItems = some most ∧ most < bounds.minItems.getD 0 ∧
        error = .invalidSchema (.itemBounds (bounds.minItems.getD 0) most) := by
  unfold list
  simp only [Except.asInvalid_eq_error, Generator.arrayOf_eq_error]
  cases bounds.maxItems with
  | none =>
    -- The limit is raised to the lower bound, so the two cannot cross.
    simp
  | some most => simp

theorem negation_eq_error {compiler : Compiler} {source : Json} :
    compiler.negation source = .error error ↔
      Validator.ofSchema? (compiler.negatedSchema source) = none ∧ error = .noValidator := by
  unfold negation
  cases Validator.ofSchema? (compiler.negatedSchema source) with
  | some validator => exact ⟨nofun, fun ⟨absent, _⟩ => nomatch absent⟩
  | none => exact ⟨fun failed => ⟨rfl, (Except.error.inj failed).symm⟩,
      fun ⟨_, same⟩ => congrArg _ same.symm⟩

/-- A choice among compiled alternatives fails only if there are none. -/
theorem members_of_alternative_eq_error {compiler : Compiler} {label : String}
    {members : List Node} (stocked : members ≠ [])
    (failed : members.mapM compiler.compile >>= alternative label members = .error error) :
    ∃ member ∈ members, compiler.compile member = .error error := by
  rcases Except.bind_eq_error.mp failed with own | ⟨alternatives, compiled, failed⟩
  · exact Except.mapM_eq_error own
  · obtain ⟨reason, built, -⟩ := Except.asInvalid_eq_error.mp failed
    have counted := (Except.mapM_eq_ok compiled).length_eq
    rw [Generator.choiceOf_eq_error built] at counted
    exact absurd (List.length_eq_zero_iff.mp counted) stocked

/-! ## Leaves

The faults of a leaf are what its construction fails for, form by form. -/

theorem integer_eq_error {bounds : NumericBounds} :
    Except.asInvalid (Generator.integerOf bounds) = .error error ↔
      document.Fault options registry (.integer bounds) error := by
  rw [Except.asInvalid_eq_error]
  simp only [Generator.integerOf_eq_error]
  constructor
  · rintro ⟨reason, own | ⟨low, high, step, range, stepped, own | ⟨whole, found, own⟩⟩, rfl⟩
    · exact .integerRange own
    · exact .integerStep range stepped own
    · exact .integerMultiples range stepped found own
  · intro fault
    cases fault with
    | integerRange own => exact ⟨_, .inl own, rfl⟩
    | integerStep range stepped own => exact ⟨_, .inr ⟨_, _, _, range, stepped, .inl own⟩, rfl⟩
    | integerMultiples range stepped found own =>
      exact ⟨_, .inr ⟨_, _, _, range, stepped, .inr ⟨_, found, own⟩⟩, rfl⟩

theorem number_eq_error {bounds : NumericBounds} :
    Except.asInvalid (Generator.numberOf bounds) = .error error ↔
      document.Fault options registry (.number bounds) error := by
  rw [Except.asInvalid_eq_error]
  simp only [Generator.numberOf_eq_error]
  constructor
  · rintro ⟨reason, own | ⟨low, high, step, range, stepped, own⟩, rfl⟩
    · exact .numberRange own
    · exact .numberMultiples range stepped own
  · intro fault
    cases fault with
    | numberRange own => exact ⟨_, .inl own, rfl⟩
    | numberMultiples range stepped own => exact ⟨_, .inr ⟨_, _, _, range, stepped, own⟩, rfl⟩

theorem text_node_eq_error {spec : TextSpec} :
    Except.asInvalid ((document.compiler options registry).text spec) = .error error ↔
      document.Fault options registry (.text spec) error := by
  rw [Except.asInvalid_eq_error]
  simp only [text_eq_error, Generator.catalogOf_eq_error]
  constructor
  · rintro ⟨reason, ⟨text, given, missing, rfl⟩ |
      ⟨name, absent, given, ⟨unknown, rfl⟩ | ⟨known, empty, rfl⟩⟩, rfl⟩
    · exact .pattern given missing
    · exact .provider absent given unknown
    · exact .catalog absent given known empty
  · intro fault
    cases fault with
    | pattern given missing => exact ⟨_, .inl ⟨_, given, missing, rfl⟩, rfl⟩
    | provider absent given unknown =>
      exact ⟨_, .inr ⟨_, absent, given, .inl ⟨unknown, rfl⟩⟩, rfl⟩
    | catalog absent given known empty =>
      exact ⟨_, .inr ⟨_, absent, given, .inr ⟨known, empty, rfl⟩⟩, rfl⟩

theorem negation_node_eq_error {negated : Node} {source : Json} :
    (document.compiler options registry).negation source = .error error ↔
      document.Fault options registry (.negation negated source) error := by
  rw [negation_eq_error]
  constructor
  · rintro ⟨missing, rfl⟩
    exact .negation missing
  · rintro ⟨⟩
    exact ⟨‹_›, rfl⟩

theorem custom_eq_error {name : String} :
    registry.find name = .error error ↔ document.Fault options registry (.custom name) error := by
  rw [Registry.find_eq_error]
  constructor
  · rintro ⟨absent, rfl⟩
    exact .custom absent
  · rintro ⟨⟩
    exact ⟨‹_›, rfl⟩

section Distinct

variable (distinct : (Entries.names document.definitions).Nodup)

include distinct

/-- A pointer without a target is not resolved, and no other one is. -/
theorem resolve_eq_error {pointer : String} :
    (document.compiler options registry).binder.resolve pointer = .error error ↔
      (∀ slot, ¬ document.Targets pointer slot) ∧ error = .unresolvedReference pointer := by
  rw [Binder.resolve_eq_error]
  refine and_congr_left fun _ => forall_congr' fun slot => not_congr ⟨?_, ?_⟩
  · exact Document.targets_of_resolve distinct
  · exact Document.resolve_of_targets distinct

theorem reference_eq_error {pointer : String} :
    (document.compiler options registry).compile (.reference pointer) = .error error ↔
      document.Fault options registry (.reference pointer) error := by
  rw [compile_reference, Except.bind_eq_error, resolve_eq_error distinct]
  constructor
  · rintro (⟨nowhere, rfl⟩ | ⟨_, -, absent⟩)
    · exact .reference nowhere
    · cases absent
  · rintro ⟨⟩
    exact .inl ⟨‹_›, rfl⟩

/-- A node without inner nodes fails exactly for its faults. -/
theorem leaf_eq_error (leaf : node.IsLeaf) (offers : node.Offers) :
    (document.compiler options registry).compile node = .error error ↔
      document.Fault options registry node error := by
  cases node with
  | null | boolean | constant | anything => exact ⟨nofun, nofun⟩
  | list | tuple | object | anyOf | oneOf | allOf => exact leaf.elim
  | enumeration kind values =>
    refine ⟨fun failed => ?_, nofun⟩
    obtain ⟨reason, built, -⟩ := Except.asInvalid_eq_error.mp failed
    exact absurd (Generator.enumerationOf_eq_error.mp built).1 offers
  | integer => exact integer_eq_error
  | number => exact number_eq_error
  | text => exact text_node_eq_error
  | reference => exact reference_eq_error distinct
  | negation => exact negation_node_eq_error
  | custom => exact custom_eq_error

/-! ## Nodes with inner nodes -/

/-- A node fails for an inner node or for a fault of its own. -/
theorem fault_of_compile_eq_error (offers : node.Offers)
    (failed : (document.compiler options registry).compile node = .error error) :
    (∃ inner, inner.Inside node ∧
      (document.compiler options registry).compile inner = .error error) ∨
      document.Fault options registry node error := by
  by_cases leaf : node.IsLeaf
  · exact .inr ((leaf_eq_error distinct leaf offers).mp failed)
  cases node with
  | list items bounds =>
    rw [compile_list] at failed
    rcases Except.bind_eq_error.mp failed with own | ⟨_, -, failed⟩
    · exact .inl ⟨items, .items, own⟩
    · obtain ⟨most, given, crossed, rfl⟩ := list_eq_error.mp failed
      exact .inr (.lengths given crossed)
  | tuple items =>
    rw [compile_tuple] at failed
    rcases Except.bind_eq_error.mp failed with own | ⟨_, -, absent⟩
    · obtain ⟨item, present, own⟩ := Except.mapM_eq_error own
      exact .inl ⟨item, .component present, own⟩
    · cases absent
  | anyOf members =>
    rw [compile_anyOf] at failed
    obtain ⟨member, present, own⟩ := members_of_alternative_eq_error offers failed
    exact .inl ⟨member, .anyOf present, own⟩
  | oneOf members =>
    rw [compile_oneOf] at failed
    obtain ⟨member, present, own⟩ := members_of_alternative_eq_error offers failed
    exact .inl ⟨member, .oneOf present, own⟩
  | allOf members =>
    rw [compile_allOf] at failed
    rcases Except.bind_eq_error.mp failed with own | ⟨_, -, absent⟩
    · obtain ⟨member, present, own⟩ := Except.mapM_eq_error own
      exact .inl ⟨member, .allOf present, own⟩
    · cases absent
  | object spec =>
    rw [compile_object] at failed
    rcases object_eq_error failed with ⟨none, rfl⟩ | ⟨-, fails⟩
    · obtain ⟨name, needs, unknown⟩ := (sets_parts_eq_nil _ spec).mp none
      exact .inr (.names needs unknown)
    · rcases inside_of_fails fails with inner | ⟨text, present, rfl, unread | missing⟩
      · exact .inl inner
      · exact .inr (.matcher present unread)
      · exact .inr (.synthesizer present missing)
  | _ => exact absurd trivial leaf

/-- A node with a fault does not compile, whatever its inner nodes. -/
theorem compile_ne_ok_of_fault (fault : document.Fault options registry node error)
    (generator : Generator) :
    (document.compiler options registry).compile node ≠ .ok generator := by
  intro compiled
  by_cases leaf : node.IsLeaf
  · have offers : node.Offers := by cases fault <;> trivial
    cases compiled.symm.trans ((leaf_eq_error distinct leaf offers).mpr fault)
  cases fault with
  | @lengths items bounds most given crossed =>
    rw [compile_list] at compiled
    obtain ⟨generators, -, built⟩ := Except.bind_eq_ok.mp compiled
    cases built.symm.trans (list_eq_error.mpr ⟨most, given, crossed, rfl⟩)
  | @names spec name needs unknown =>
    rw [compile_object, object_of_sets_nil ((sets_parts_eq_nil _ spec).mpr ⟨name, needs, unknown⟩)]
      at compiled
    cases compiled
  | @matcher spec text present unread =>
    rw [compile_object] at compiled
    obtain ⟨pieces, built, -⟩ := object_eq_ok compiled
    rw [← names_patterns (document.compiler options registry) spec] at present
    obtain ⟨pattern, found, -⟩ := ObjectParts.mem_matchers built.matchers present
    cases unread.symm.trans found
  | @synthesizer spec text present missing =>
    rw [compile_object] at compiled
    obtain ⟨pieces, built, -⟩ := object_eq_ok compiled
    rw [← names_patterns (document.compiler options registry) spec] at present
    obtain ⟨pattern, listed, rfl⟩ := List.mem_map.mp present
    obtain ⟨⟨_, found⟩, -⟩ := ObjectParts.exists_ok_of_groups built.groups listed
    cases missing.symm.trans found
  | _ => exact leaf trivial

/-- The error of a node is that of a fault in it. -/
theorem exists_fault_of_compile_eq_error (supplied : node.Supplied)
    (failed : (document.compiler options registry).compile node = .error error) :
    ∃ part, Node.Part part node ∧ document.Fault options registry part error := by
  induction node using Node.induction with
  | step node ih =>
    rcases fault_of_compile_eq_error distinct (supplied node (.self node)) failed with
      ⟨inner, inside, failed⟩ | fault
    · have within : inner.Supplied := fun part below => supplied part (below.tail inside)
      obtain ⟨part, below, fault⟩ := ih inner inside within failed
      exact ⟨part, below.tail inside, fault⟩
    · exact ⟨node, .self node, fault⟩

end Distinct

end Compiler

namespace Document

variable {document : Document} {options : Options} {registry : Registry}

/-- The nodes of a document that compiles all compile. -/
theorem compile_of_part (distinct : (Entries.names document.definitions).Nodup) {slots : Slots}
    (compiled : document.slots options registry = .ok slots) {node : Node}
    (present : Document.Part node document) :
    ∃ generator, (document.compiler options registry).compile node = .ok generator := by
  obtain ⟨root, bodies, own, all, -⟩ := (slots_eq_ok distinct).mp compiled
  rcases present with below | ⟨entry, listed, below⟩
  · exact Compiler.compile_part below own
  · obtain ⟨body, own⟩ := Compiler.exists_compile_of_mapM all (List.mem_map_of_mem listed)
    exact Compiler.compile_part below own

/-- A parsed document compiles exactly if none of its nodes outside negations has a fault of its
own, used or not, and the error of another one is that of such a fault. -/
theorem slots_iff_no_fault {schema : Json} (wellFormed : schema.WellFormed)
    (parsed : parse schema = .ok document) (options : Options) (registry : Registry) :
    ((∃ slots, document.slots options registry = .ok slots) ↔
      ∀ node, Document.Part node document → ∀ error, ¬ document.Fault options registry node error) ∧
    ∀ error, document.slots options registry = .error error →
      ∃ node, Document.Part node document ∧ document.Fault options registry node error := by
  have distinct : (Entries.names document.definitions).Nodup :=
    (sorted_definitions wellFormed parsed).nodup_names
  have failing : ∀ error, document.slots options registry = .error error →
      ∃ node, Document.Part node document ∧ document.Fault options registry node error := by
    intro error failed
    rw [slots_eq distinct] at failed
    rcases Except.bind_eq_error.mp failed with root | ⟨_, -, failed⟩
    · obtain ⟨node, below, fault⟩ := Compiler.exists_fault_of_compile_eq_error distinct
        (fun part below => supplied_of_parse parsed (.inl below)) root
      exact ⟨node, .inl below, fault⟩
    · rcases Except.bind_eq_error.mp failed with own | ⟨_, -, absent⟩
      · obtain ⟨definition, present, own⟩ := Except.mapM_eq_error own
        obtain ⟨entry, listed, rfl⟩ := List.mem_map.mp present
        obtain ⟨node, below, fault⟩ := Compiler.exists_fault_of_compile_eq_error distinct
          (fun part below => supplied_of_parse parsed (.inr ⟨entry, listed, below⟩)) own
        exact ⟨node, .inr ⟨entry, listed, below⟩, fault⟩
      · cases absent
  refine ⟨⟨fun ⟨slots, compiled⟩ node present error fault => ?_, fun sound => ?_⟩, failing⟩
  · obtain ⟨generator, own⟩ := compile_of_part distinct compiled present
    exact Compiler.compile_ne_ok_of_fault distinct fault generator own
  · cases result : document.slots options registry with
    | ok slots => exact ⟨slots, rfl⟩
    | error error =>
      obtain ⟨node, present, fault⟩ := failing error result
      exact absurd fault (sound node present error)

/-- A property that nothing resolves and that no set of names has. -/
def prunedSpec : ObjectSpec Node :=
  ⟨[("x", .reference "#/definitions/b")], [], .absent, [], [("x", ["y"])], []⟩

def prunedSchema : Json :=
  .obj [("dependencies", .obj [("x", .strings ["y"])]),
    ("properties", .obj [("x", .obj [("$ref", .str "#/definitions/b")])]),
    ("type", .str "object")]

def prunedDocument : Document := ⟨.object prunedSpec, [], .obj []⟩

theorem pruned_property_fails :
    prunedSchema.WellFormed ∧ parse prunedSchema = .ok prunedDocument ∧
      (∀ keys, prunedSpec.Admits keys → "x" ∉ keys) ∧
      Document.Part (.reference "#/definitions/b") prunedDocument ∧
      prunedDocument.Fault {} [] (.reference "#/definitions/b")
        (.unresolvedReference "#/definitions/b") ∧
      (¬ ∃ slots, prunedDocument.slots {} [] = .ok slots) ∧
      ∃ error node, prunedDocument.slots {} [] = .error error ∧
        Document.Part node prunedDocument ∧ prunedDocument.Fault {} [] node error := by
  have wellFormed : prunedSchema.WellFormed := by
    refine ⟨Entries.sorted_iff_names.mpr (by decide), ?_⟩
    simp [Json.WellFormed, Json.WellFormedMembers, Json.WellFormedItems, Entries.Sorted,
      Json.strings]
  have parsed : parse prunedSchema = .ok prunedDocument := rfl
  have pruned : ∀ keys, prunedSpec.Admits keys → "x" ∉ keys := fun keys admits present =>
    absurd (admits.known "y" (admits.closed "x" present ["y"] rfl "y" List.mem_cons_self))
      (by decide)
  have below : Document.Part (.reference "#/definitions/b") prunedDocument :=
    .inl (.single (@Node.Inside.property prunedSpec ("x", _) List.mem_cons_self))
  have distinct : (Entries.names prunedDocument.definitions).Nodup := List.nodup_nil
  have unresolved : (prunedDocument.compiler {} []).binder.resolve "#/definitions/b" =
      .error (.unresolvedReference "#/definitions/b") := by cbv
  have fault : prunedDocument.Fault {} [] (.reference "#/definitions/b")
      (.unresolvedReference "#/definitions/b") :=
    .reference ((Compiler.resolve_eq_error distinct).mp unresolved).1
  obtain ⟨sound, failing⟩ := slots_iff_no_fault wellFormed parsed {} []
  have fails : ¬ ∃ slots, prunedDocument.slots {} [] = .ok slots := fun compiled =>
    sound.mp compiled _ below _ fault
  cases result : prunedDocument.slots {} [] with
  | ok slots => exact absurd ⟨slots, result⟩ fails
  | error error =>
    obtain ⟨node, present, own⟩ := failing error result
    rw [result] at fails
    exact ⟨wellFormed, parsed, pruned, below, fault, fails, error, node, rfl, present, own⟩

end Document

end SchemaSampler
