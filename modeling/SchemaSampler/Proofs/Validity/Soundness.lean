import SchemaSampler.Proofs.Draw.Recursion
import SchemaSampler.Proofs.Hoist.NoSyntheticKeys
import SchemaSampler.Proofs.Validity.Records
import SchemaSampler.Proofs.Validity.References

/-!
# Draws are valid

Every hoisted draw of a schema of the fragment is valid. The proof is an induction on the schema:
if slots give values that pass the schemas behind them, then so does what a compiled schema draws.
Each form of the fragment has a lemma of its own.

Results:
1. `Schema.Plain.sound`: hoisted values of a compiled schema pass it, if those of slots pass the
   schemas behind them.
2. `Sampler.draw_valid`: hoisted draws of a compiled document are valid.
-/

namespace SchemaSampler

namespace Schema

section Soundness

variable {compiler : Compiler} {root : Json} {definitions : Entries Json}
  {ranking : Ranking root} {depth : Nat} {node : Node} {generator : Generator} {drawn : Json}

/-- The hoisted value passes the root or the definition, whichever has the slot. -/
def SlotPasses (compiler : Compiler) (definitions : Entries Json) (ranking : Ranking root)
    (slot : Nat) (value : Json) : Prop :=
  (slot = rootSlot ∧ Passes ranking root (hoist compiler.options.keys value)) ∨
    ∃ name target, definitions.get? name = some target ∧
      compiler.binder.index.get? name = some slot ∧
      Passes ranking target (hoist compiler.options.keys value)

/-- Whatever the compiled schema yields passes it once hoisted, if slots do. -/
def Sound (compiler : Compiler) (definitions : Entries Json) (ranking : Ranking root)
    (schema : Json) : Prop :=
  ∀ generator, CompilesTo compiler schema generator → ∀ drawn,
    generator.Yields compiler.options (SlotPasses compiler definitions ranking) drawn →
    Passes ranking schema (hoist compiler.options.keys drawn)

/-! ## Scalars and fixed values -/

theorem sound_anything : Sound compiler definitions ranking (.bool true) := by
  intro generator _ drawn _ fuel _
  rw [failures_eq_view]
  rfl

theorem sound_empty {stated : Option (Entries Json)} :
    Sound compiler definitions ranking (.obj (optional .definitions .obj stated)) := by
  intro generator _ drawn _ fuel _
  rw [failures_eq_view]
  exact view_empty

/-- A scalar node gives scalars of its type, which hoisting leaves alone. -/
theorem scalar_admits {type : TypeName} (notArray : type ≠ .array) (notObject : type ≠ .object)
    (compiled : compiler.compile (scalarNode type) = .ok generator) {reach : Nat → Json → Prop}
    (yielded : generator.Yields compiler.options reach drawn) :
    type.admits (hoist compiler.options.keys drawn) = true := by
  cases type with
  | null =>
    cases compiled
    cases yielded
    rfl
  | boolean =>
    cases compiled
    obtain ⟨value, rfl⟩ := yielded
    rfl
  | integer =>
    obtain ⟨⟨low, high⟩, -, built⟩ := Except.bind_eq_ok.mp (Except.asInvalid_eq_ok.mp compiled)
    cases built
    obtain ⟨value, rfl⟩ := yielded
    rfl
  | number =>
    obtain ⟨⟨low, high⟩, -, built⟩ := Except.bind_eq_ok.mp (Except.asInvalid_eq_ok.mp compiled)
    cases built
    obtain ⟨value, rfl⟩ := yielded
    rfl
  | string =>
    obtain ⟨text, rfl⟩ := Compiler.text_yields (Except.asInvalid_eq_ok.mp compiled) yielded
    rfl
  | array => exact absurd rfl notArray
  | object => exact absurd rfl notObject

theorem sound_scalar {stated : Option (Entries Json)} {type : TypeName}
    (notArray : type ≠ .array) (notObject : type ≠ .object) :
    Sound compiler definitions ranking
      (.obj (optional .definitions .obj stated ++ [("type", .str type.name)])) := by
  rintro generator ⟨depth, node, classified, compiled⟩ drawn yielded fuel -
  cases classify_scalar notArray notObject classified
  rw [failures_eq_view, view_scalar_eq_nil]
  exact scalar_admits notArray notObject compiled yielded

theorem sound_constant {stated : Option (Entries Json)} {value : Json}
    (free : value.FreeOf compiler.options.keys) (finite : value.HasFiniteValue) :
    Sound compiler definitions ranking
      (.obj (("const", value) :: optional .definitions .obj stated)) := by
  rintro generator ⟨depth, node, classified, compiled⟩ drawn yielded fuel -
  cases classify_constant classified
  cases compiled
  cases yielded
  rw [failures_eq_view, view_constant_eq_nil, hoist_of_freeOf free]
  exact isConstant_refl finite

theorem sound_enumeration {stated : Option (Entries Json)} {values : List Json}
    (free : ∀ value ∈ values, value.FreeOf compiler.options.keys) :
    Sound compiler definitions ranking
      (.obj (optional .definitions .obj stated ++ [("enum", .arr values)])) := by
  rintro generator ⟨depth, node, classified, compiled⟩ drawn yielded fuel -
  cases classify_enumeration classified
  have present := Generator.enumerationOf_yields (Except.asInvalid_eq_ok.mp compiled) yielded
  rw [failures_eq_view, view_enumeration_eq_nil, hoist_of_freeOf (free drawn present)]
  exact ⟨drawn, present, Json.sameValue_refl drawn⟩

/-! ## Arrays -/

theorem sound_array {stated : Option (Entries Json)} {items : Option Json}
    {most least : Option Nat} (present : ∀ schema, items = some schema → schema ≠ .null)
    (single : ∀ places, items ≠ some (.arr places))
    (inner : ∀ schema, items = some schema → Sound compiler definitions ranking schema) :
    Sound compiler definitions ranking (.obj (arrayMembers stated items most least)) := by
  rintro generator ⟨depth, node, classified, compiled⟩ drawn yielded fuel affords
  obtain ⟨below, itemNode, rfl, own⟩ := classify_array present single classified
  rw [Compiler.compile] at compiled
  split at compiled
  next element itemCompiled =>
    obtain ⟨values, rfl, above, within, each⟩ :=
      Generator.arrayOf_yields (Except.asInvalid_eq_ok.mp compiled) yielded
    rw [failures_eq_view, view_array_eq_nil single]
    rw [hoist, hoistItems_eq_map] at affords ⊢
    refine ⟨_, rfl, fun count given => ?_, fun count given => ?_, fun schema given value listed => ?_⟩
    · cases given
      rwa [List.length_map]
    · cases given
      rwa [List.length_map]
    · rw [← failures_eq_view]
      have deeper := Json.depth_lt_of_item listed
      obtain ⟨raw, there, rfl⟩ := List.mem_map.mp listed
      have compiles : CompilesTo compiler schema element :=
        ⟨below, itemNode, own schema given, itemCompiled⟩
      exact (inner schema given element compiles raw (each raw there)).inside deeper affords
  next => cases compiled

theorem sound_tuple {stated : Option (Entries Json)} {places : List Json}
    (inner : ∀ schema ∈ places, Sound compiler definitions ranking schema) :
    Sound compiler definitions ranking
      (.obj (arrayMembers stated (some (.arr places)) none none)) := by
  rintro generator ⟨depth, node, classified, compiled⟩ drawn yielded fuel affords
  obtain ⟨below, nodes, rfl, own⟩ := classify_tuple classified
  rw [Compiler.compile] at compiled
  split at compiled
  next generators all =>
    cases compiled
    obtain ⟨raws, rfl, each⟩ := yielded
    rw [failures_eq_view, view_tuple_eq_nil]
    rw [hoist, hoistItems_eq_map] at affords ⊢
    refine ⟨_, rfl, fun place schema value stands found => ?_⟩
    rw [← failures_eq_view]
    have deeper := Json.depth_lt_of_item (List.mem_of_getElem? found)
    rw [List.getElem?_map, Option.map_eq_some_iff] at found
    obtain ⟨raw, drawn, rfl⟩ := found
    -- The value, its generator, its node and its schema stand at one place of four lists.
    obtain ⟨element, there, holds⟩ :=
      Generator.exists_left_of_getElem? (Generator.yieldsEach_iff.mp each) drawn
    obtain ⟨itemNode, also, itemCompiled⟩ :=
      Generator.exists_left_of_getElem? (Compiler.compileAll_eq_ok all) there
    obtain ⟨_, same, itemClassified⟩ := Generator.exists_left_of_getElem? own also
    cases stands.symm.trans same
    have compiles : CompilesTo compiler schema element :=
      ⟨below, itemNode, itemClassified, itemCompiled⟩
    have passes := inner schema (List.mem_of_getElem? stands) element compiles raw holds
    exact passes.inside deeper affords
  next => cases compiled

/-! ## Records -/

theorem sound_record {keywords : RecordKeywords}
    (consistent : keywords.Consistent compiler.options.keys)
    (present : ∀ schema, keywords.additional = some schema → schema ≠ .null)
    (inner : ∀ name schema, keywords.Governs name schema →
      Sound compiler definitions ranking schema) :
    Sound compiler definitions ranking (.obj keywords.members) := by
  intro generator compiles drawn yielded fuel affords
  obtain ⟨members, hoisted, wanted, between, each⟩ :=
    record_drawn consistent present compiles yielded
  rw [hoisted] at affords ⊢
  rw [failures_eq_view, view_record_eq_nil]
  have governed (name : String) (value : Json) (listed : (name, value) ∈ members) (schema : Json)
      (governs : keywords.Governs name schema) :
      (view (following root fuel) schema).schema value = [] := by
    have deeper := Json.depth_lt_of_member listed
    obtain ⟨raw, rfl, sourced⟩ := each name value listed
    obtain ⟨field, compiles, holds⟩ := sourced schema governs
    rw [← failures_eq_view]
    exact (inner name schema governs field compiles raw holds).inside deeper affords
  refine ⟨members, rfl, fun name value listed schema found => ?_,
    fun name value listed other schema given => ?_, wanted, between⟩
  · exact governed name value listed schema (.inl found)
  · exact governed name value listed schema (.inr ⟨other, given⟩)

/-! ## Unions, negations and references -/

theorem sound_anyOf {stated : Option (Entries Json)} {schemas : List Json}
    (inner : ∀ schema ∈ schemas, Sound compiler definitions ranking schema) :
    Sound compiler definitions ranking
      (.obj (("anyOf", .arr schemas) :: optional .definitions .obj stated)) := by
  rintro generator ⟨depth, node, classified, compiled⟩ drawn yielded fuel affords
  obtain ⟨below, nodes, rfl, own⟩ := classify_anyOf classified
  rw [Compiler.compile] at compiled
  split at compiled
  next generators all =>
    obtain ⟨alternative, listed, holds⟩ :=
      Generator.choiceOf_yields (Except.asInvalid_eq_ok.mp compiled) yielded
    obtain ⟨inside, there, compiles⟩ :=
      Generator.exists_left_of_mem (Compiler.compileAll_eq_ok all) listed
    obtain ⟨schema, present, classified⟩ := Generator.exists_left_of_mem own there
    have passes :=
      inner schema present alternative ⟨below, inside, classified, compiles⟩ drawn holds
    rw [failures_eq_view, view_anyOf_eq_nil]
    refine ⟨schema, present, ?_⟩
    rw [← failures_eq_view]
    refine passes.among (fun pointer exposed => .alternative ?_ present exposed) affords
    exact Entries.get?_cons_self _ _ _
  next => cases compiled

theorem negatedSchema_eq (compiler : Compiler) (source : Json) : compiler.negatedSchema source =
    .obj [("allOf", .arr [source]), ("definitions", compiler.definitions)] := by
  have later : ¬ ("definitions" : String) < "allOf" := by decide +kernel
  have other : "definitions" ≠ "allOf" := by decide +kernel
  simp only [Compiler.negatedSchema, Json.object, Entries.ofList, List.foldl_cons, List.foldl_nil,
    Entries.insert, if_neg later, if_neg other]

/-- The schema of a negation's validator asks for what is negated. -/
theorem view_negatedSchema (compiler : Compiler) {check : String → Check} {source part : Json} :
    (view check (compiler.negatedSchema source)).schema part = [] ↔
      (view check source).schema part = [] := by
  rw [negatedSchema_eq, view_obj_eq_nil (by simp [Entries.names]) (by simp [Entries.names]),
    List.forall_mem_cons, List.forall_mem_singleton]
  have both : Check.all [(view check source).schema] part = (view check source).schema part := by
    simp [Check.all]
  exact ⟨fun passed => both ▸ passed.1, fun passed => ⟨both.trans passed, rfl⟩⟩

/-- Values that a negation accepts fail its schema, whatever references stand for in there. -/
theorem sound_negation {stated : Option (Entries Json)} {negated : Json}
    (plain : Plain compiler.options.keys false negated) :
    Sound compiler definitions ranking
      (.obj (optional .definitions .obj stated ++ [("not", negated)])) := by
  rintro generator ⟨depth, node, classified, compiled⟩ drawn yielded fuel -
  obtain ⟨inner, rfl⟩ := classify_negation plain.ne_null classified
  rw [Compiler.compile, Compiler.negation, Validator.ofSchema?] at compiled
  split at compiled
  next validator made =>
    cases compiled
    obtain ⟨unconstrained, rejected⟩ := yielded
    rw [hoist_of_freeOf (Json.Unconstrained.freeOf unconstrained)]
    split at made
    next =>
      cases made
      rw [failures_eq_view, view_negation_eq_nil]
      -- Passing here would be passing for the filter, whose schema has other definitions.
      intro passed
      have valid : (Validator.mk (compiler.negatedSchema negated)).isValid drawn = true := by
        unfold Validator.isValid Validator.failures
        rw [failures_eq_view, List.isEmpty_iff, view_negatedSchema]
        exact (plain.view_agree rfl drawn).mp passed
      simp [valid] at rejected
    next => cases made
  next => cases compiled

theorem sound_reference (registered : compiler.binder.Registered)
    (given : Document.definitionsOf root = .obj definitions) {stated : Option (Entries Json)}
    {pointer : String} (link : IsLink pointer) :
    Sound compiler definitions ranking
      (.obj (("$ref", .str pointer) :: optional .definitions .obj stated)) := by
  rintro generator ⟨depth, node, classified, compiled⟩ drawn reached fuel affords
  cases classify_reference classified
  rw [Compiler.compile] at compiled
  split at compiled
  next slot resolved =>
    cases compiled
    rw [failures_eq_view, view_link]
    have exposed : Exposes (.obj (("$ref", .str pointer) :: optional .definitions .obj stated))
        pointer := .reference (Entries.get?_cons_self _ _ _)
    rcases link with rfl | ⟨name, rfl, simple⟩
    · -- The root's slot is no definition's, and each definition has a slot of its own.
      have rooted : compiler.binder.resolve rootPointer = .ok rootSlot := if_pos (.inr rfl)
      cases rooted.symm.trans resolved
      rcases reached with ⟨-, passes⟩ | ⟨name, target, -, indexed, -⟩
      · exact passes.through (.inl rfl) (resolve_root root) exposed affords
      · exact absurd (registered.after_root indexed) (Nat.lt_irrefl _)
    · have indexed := resolve_slot simple resolved
      rcases reached with ⟨rfl, -⟩ | ⟨other, target, found, also, passes⟩
      · exact absurd (registered.after_root indexed) (Nat.lt_irrefl _)
      · cases registered.injective indexed also
        have leads := (resolve_definition simple given).trans found
        exact passes.through (.inr ⟨name, rfl, simple⟩) leads exposed affords
  next => cases compiled

/-! ## Schemas and documents -/

theorem not_compilesTo_false : ¬ CompilesTo compiler (.bool false) generator := by
  rintro ⟨depth, node, classified, -⟩
  cases depth <;> cases classified

/-- Every schema of the fragment is sound. -/
theorem Plain.sound (registered : compiler.binder.Registered)
    (given : Document.definitionsOf root = .obj definitions) {references : Bool} {schema : Json}
    (plain : Plain compiler.options.keys references schema) :
    Sound compiler definitions ranking schema := by
  induction plain with
  | anything => exact sound_anything
  | empty => exact sound_empty
  | scalar notArray notObject => exact sound_scalar notArray notObject
  | constant free finite => exact sound_constant free finite
  | enumeration free => exact sound_enumeration free
  | array inner ih =>
    exact sound_array (fun schema stated => (inner schema stated).ne_null) (single_of_plain inner) ih
  | tuple _ ih => exact sound_tuple ih
  | @record _ keywords consistent _ further declaredIh furtherIh =>
    refine sound_record consistent (fun schema stated => ?_) fun name schema governs => ?_
    · by_cases forbidden : schema = .bool false
      · rw [forbidden]
        exact nofun
      · exact (further schema stated forbidden).ne_null
    · rcases governs with declared | ⟨-, stated⟩
      · exact declaredIh _ (Entries.mem_of_get?_eq_some declared)
      · by_cases forbidden : schema = .bool false
        · -- `false` compiles to nothing, so no member was drawn for it.
          rw [forbidden]
          exact fun _ compiles => absurd compiles not_compilesTo_false
        · exact furtherIh schema stated forbidden
  | anyOf _ ih => exact sound_anyOf ih
  | negation plain => exact sound_negation plain
  | reference link => exact sound_reference registered given link

end Soundness

end Schema

namespace Sampler

/-- Every hoisted draw of a document of the fragment is valid, if each cycle of references passes
through an item or a property. -/
theorem draw_valid {schema : Json} {options : Options} {registry : Registry} {sampler : Sampler}
    (plain : Schema.PlainDocument options.keys schema) (guarded : Schema.Guarded schema)
    (compiled : compileHoisted schema options registry = .ok sampler) {source : Source}
    {value : Json} (drawn : (sampler.draw source).1 = .ok value) :
    (Validator.mk schema).isValid value = true := by
  obtain ⟨raw, rawCompiled, rfl⟩ := compileHoisted_eq_ok.mp compiled
  obtain ⟨document, parsed, slots, root, rfl⟩ := compile_eq_ok.mp rawCompiled
  obtain ⟨classified, definitions, given, defined⟩ := Document.parse_eq_ok parsed
  obtain ⟨distinct, plainDefinitions⟩ := plain.definitions definitions given
  obtain ⟨ranking, bound⟩ := guarded.exists_ranking given
  let compiler := document.compiler raw.options registry
  have registered : compiler.binder.Registered := Document.compiler_registered _ _ _
  have sound {schema : Json} (plain : Schema.Plain raw.options.keys true schema) :
      Schema.Sound compiler definitions ranking schema := plain.sound registered given
  have closed : Generator.Closed raw.options raw.slots.bodies
      (Schema.SlotPasses compiler definitions ranking) := by
    intro slot body value found yielded
    rcases Document.slots_body slots found with ⟨here, compiles⟩ | ⟨name, node, listed, indexed, compiles⟩
    · exact .inl ⟨here, sound plain.root body ⟨_, _, classified, compiles⟩ value yielded⟩
    · have paired : (name, (.ok node : Node.Classified Node)) ∈
          definitions.map fun entry => (entry.1, Node.classify entry.2) :=
        defined ▸ List.mem_map.mpr ⟨_, listed, rfl⟩
      obtain ⟨⟨_, target⟩, stated, same⟩ := List.mem_map.mp paired
      obtain ⟨rfl, own⟩ := Prod.mk.inj same
      have passes := sound (plainDefinitions _ stated) body ⟨_, _, own, compiles⟩
      exact .inr ⟨_, target, Entries.get?_eq_some_of_mem distinct stated, indexed,
        passes value yielded⟩
  obtain ⟨inner, yielded, rfl⟩ := Generator.draw_yields closed drawn
  rcases closed rootSlot raw.entry inner root yielded with ⟨-, passes⟩ | ⟨_, _, -, indexed, -⟩
  · exact Schema.isValid_of_passes given bound passes
  · exact absurd (registered.after_root indexed) (Nat.lt_irrefl _)

/-- Chains of objects whose links need a flag. -/
def chainKeywords : Schema.RecordKeywords where
  additional := some (.bool false)
  definitions := some [("flag", .obj [("type", .str "boolean")])]
  dependencies := some [("next", ["flag"])]
  properties := some [("flag", .obj [("$ref", .str "#/definitions/flag")]),
    ("next", .obj [("$ref", .str "#")])]
  required := none

def chainSchema : Json := .obj chainKeywords.members

def chainBody : Generator :=
  let flag := ("flag", Generator.reference "#/definitions/flag" 1)
  .choice "structural.object" [.record [], .record [flag],
    .record [flag, ("next", .reference "#" 0)]] (some 0)

def chainSampler : Sampler := ⟨.map chainBody (hoist {}), ⟨["#", "flag"], [chainBody, .boolean]⟩, {}⟩

theorem chain_plain : Schema.PlainDocument {} chainSchema where
  root := by
    have flag : Schema.IsLink "#/definitions/flag" := .inr ⟨"flag", rfl, rfl⟩
    have plain {pointer : String} (link : Schema.IsLink pointer) :
        Schema.Plain {} true (.obj [("$ref", .str pointer)]) := @Schema.Plain.reference _ none _ link
    refine .record ⟨by decide, nofun, nofun, by decide, ?_⟩ ?_ ?_
    · rintro schema ⟨⟩ notFalse
      exact absurd rfl notFalse
    · intro entry present
      rcases List.mem_pair.mp present with rfl | rfl
      · exact plain flag
      · exact plain (.inl rfl)
    · rintro schema ⟨⟩ notFalse
      exact absurd rfl notFalse
  definitions := by
    rintro members ⟨⟩
    refine ⟨by decide, fun entry present => ?_⟩
    rw [List.mem_singleton.mp present]
    exact @Schema.Plain.scalar _ _ none .boolean nofun nofun

/-- Neither the root nor the definition refers on to anything for the same instance. -/
theorem chain_guarded : Schema.Guarded chainSchema := by
  have ends : ∀ pointer other, ¬ Schema.Leads chainSchema pointer other := by
    rintro pointer other ⟨link, target, leads, exposed⟩
    have given : Document.definitionsOf chainSchema =
        .obj [("flag", .obj [("type", .str "boolean")])] := rfl
    rcases link with rfl | ⟨name, rfl, simple⟩
    · rw [Schema.resolve_root] at leads
      cases leads
      cases exposed with
      | reference found => cases found
      | alternative found => cases found
    · rw [Schema.resolve_definition simple given] at leads
      have listed := Entries.mem_of_get?_eq_some leads
      cases List.mem_singleton.mp listed
      cases exposed with
      | reference found => cases found
      | alternative found => cases found
  intro pointer cycle
  obtain ⟨other, step, -⟩ := Relation.TransGen.head'_iff.mp cycle
  exact ends pointer other step

theorem chain_draw_valid :
    Schema.PlainDocument {} chainSchema ∧ Schema.Guarded chainSchema ∧
      compileHoisted chainSchema {} [] = .ok chainSampler ∧
      (chainSampler.draw (.cycle #[0xC0000000, 0x80000000])).1 =
        .ok (.obj [("flag", .bool false), ("next", .obj [("flag", .bool false)])]) ∧
      (Validator.mk chainSchema).isValid
        (.obj [("flag", .bool false), ("next", .obj [("flag", .bool false)])]) = true := by
  have compiled : compileHoisted chainSchema {} [] = .ok chainSampler := by cbv
  have drawn : (chainSampler.draw (.cycle #[0xC0000000, 0x80000000])).1 =
      .ok (.obj [("flag", .bool false), ("next", .obj [("flag", .bool false)])]) := by cbv
  exact ⟨chain_plain, chain_guarded, compiled, drawn,
    draw_valid chain_plain chain_guarded compiled drawn⟩

end Sampler

end SchemaSampler
