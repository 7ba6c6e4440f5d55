import SchemaSampler.Proofs.Compile.Leaves
import SchemaSampler.Proofs.Compile.Slots
import SchemaSampler.Proofs.Draw.Recursion
import SchemaSampler.Proofs.Hoist.Parts

/-!
# Synthetic keys stay inside

Raw values have synthetic keys, and drawn keys could collide with them. Whatever a compiled node
yields is free of them once it is hoisted, if the schema itself does not use them: containers stand
under their own keys only, and keys that are drawn are never synthetic.

Results:
1. `Compiler.compile_hoistsFree`: hoisted values of a node are free, if those of slots are.
2. `Sampler.draw_freeOf`: hoisted draws of a compiled schema are free.
-/

namespace SchemaSampler

variable {keys : SyntheticKeys}

/-! ## Schemas that do not use synthetic keys -/

/-- Neither property names nor required names nor fixed values of the node use synthetic keys. -/
inductive Node.Avoids (keys : SyntheticKeys) : Node → Prop
  | null : Avoids keys .null
  | boolean : Avoids keys .boolean
  | constant {value : Json} : value.FreeOf keys → Avoids keys (.constant value)
  | enumeration {kind : EnumKind} {values : List Json} : (∀ value ∈ values, value.FreeOf keys) →
      Avoids keys (.enumeration kind values)
  | integer {bounds : NumericBounds} : Avoids keys (.integer bounds)
  | number {bounds : NumericBounds} : Avoids keys (.number bounds)
  | text {spec : TextSpec} : Avoids keys (.text spec)
  | reference {pointer : String} : Avoids keys (.reference pointer)
  | list {items : Node} {bounds : ListBounds} : Avoids keys items → Avoids keys (.list items bounds)
  | tuple {items : List Node} : (∀ item ∈ items, Avoids keys item) → Avoids keys (.tuple items)
  | object {spec : ObjectSpec Node} :
      (∀ entry ∈ spec.properties, keys.contains entry.1 = false) →
      (∀ name ∈ spec.required, keys.contains name = false) →
      (∀ entry ∈ spec.properties, Avoids keys entry.2) →
      (∀ node, spec.additional = .schema node → Avoids keys node) →
      (∀ entry ∈ spec.patterns, Avoids keys entry.2) → Avoids keys (.object spec)
  | anyOf {members : List Node} : (∀ member ∈ members, Avoids keys member) →
      Avoids keys (.anyOf members)
  | oneOf {members : List Node} : (∀ member ∈ members, Avoids keys member) →
      Avoids keys (.oneOf members)
  | allOf {members : List Node} : (∀ member ∈ members, Avoids keys member) →
      Avoids keys (.allOf members)
  | negation {negated : Node} {source : Json} : Avoids keys (.negation negated source)
  | custom {name : String} : Avoids keys (.custom name)
  | anything : Avoids keys .anything

theorem Node.Avoids.inside {inner node : Node} (inside : inner.Inside node)
    (avoids : node.Avoids keys) : inner.Avoids keys := by
  cases inside with
  | items =>
    cases avoids with
    | list items => exact items
  | component present =>
    cases avoids with
    | tuple items => exact items _ present
  | property present =>
    cases avoids with
    | object _ _ properties => exact properties _ present
  | additional same =>
    cases avoids with
    | object _ _ _ additional => exact additional _ same
  | patterned present =>
    cases avoids with
    | object _ _ _ _ patterns => exact patterns _ present
  | anyOf present =>
    cases avoids with
    | anyOf members => exact members _ present
  | oneOf present =>
    cases avoids with
    | oneOf members => exact members _ present
  | allOf present =>
    cases avoids with
    | allOf members => exact members _ present

theorem Node.Avoids.part {part node : Node} (below : part.Part node) (avoids : node.Avoids keys) :
    part.Avoids keys := by
  induction below with
  | refl => exact avoids
  | tail _ inside ih => exact ih (avoids.inside inside)

/-- The root and every definition avoid synthetic keys. -/
structure Document.Avoids (document : Document) (keys : SyntheticKeys) : Prop where
  root : document.root.Avoids keys
  definitions : ∀ entry ∈ document.definitions, entry.2.Avoids keys

/-- Registered generators are closures whose values have no synthetic keys. -/
def Registry.ClosuresFreeOf (registry : Registry) (keys : SyntheticKeys) : Prop :=
  ∀ entry ∈ registry, ∃ draw, entry.2 = .closure draw ∧ ∀ source, (draw source).1.FreeOf keys

/-! ## Hoisted values of generators -/

/-- Whatever the generator yields is free of synthetic keys once hoisted, if slots are. -/
def Generator.HoistsFree (options : Options) (generator : Generator) : Prop :=
  ∀ drawn, generator.Yields options
    (fun _ value => (hoist options.keys value).FreeOf options.keys) drawn →
    (hoist options.keys drawn).FreeOf options.keys

theorem Json.Unconstrained.freeOf {maxEntries maxLength depth : Nat} {value : Json}
    (value_shape : value.Unconstrained keys maxEntries maxLength depth) : value.FreeOf keys := by
  induction value_shape with
  | null => exact .null
  | bool => exact .bool
  | int => exact .int
  | float => exact .float
  | str => exact .str
  | arr _ _ ih => exact .arr ih
  | obj _ names _ ih => exact .obj (fun member present => (names member present).1) ih

theorem hoist_freeOf {value : Json} (free : value.FreeOf keys) : (hoist keys value).FreeOf keys :=
  (hoist_of_freeOf free).symm ▸ free

namespace Compiler

variable {compiler : Compiler}

theorem arbitrary_hoistsFree : compiler.arbitrary.HoistsFree compiler.options :=
  fun _ yielded => hoist_freeOf yielded.freeOf

/-- The entries of a dictionary of free values are free. -/
theorem dictionary_freeOf {options : Options} {keys values : Generator} {maxEntries : Nat}
    {reserved : List String} {excluded : List Pattern} (free : values.HoistsFree options)
    {drawn : Json} (yielded : (Generator.dictionary keys values maxEntries reserved excluded).Yields
      options (fun _ value => (hoist options.keys value).FreeOf options.keys) drawn) :
    (hoistEntries options.keys drawn).FreeOf options.keys := by
  intro entry present
  obtain ⟨members, same, -, each⟩ := yielded
  obtain ⟨_, member, shape, listed, rfl⟩ := mem_hoistEntries present
  cases same.symm.trans shape
  obtain ⟨admitted, -, value⟩ := each member listed
  exact ⟨(admitsKey_iff.mp admitted).2.1, free member.2 value⟩

/-- The groups in a container of free values are free. -/
theorem groups_freeOf {parts : ObjectParts} {pieces : ObjectPieces compiler parts}
    (built : pieces.Compiled)
    (patterns : ∀ text values, (text, .ok values) ∈ parts.patterns →
      values.HoistsFree compiler.options) {drawn : Json}
    (yielded : (Generator.record pieces.groups).Yields compiler.options
      (fun _ value => (hoist compiler.options.keys value).FreeOf compiler.options.keys) drawn)
    {group : Entries Json} (hoisted : group ∈ hoistGroups compiler.options.keys drawn) :
    group.FreeOf compiler.options.keys := by
  obtain ⟨members, same, fieldwise⟩ := yielded
  obtain ⟨_, member, shape, listed, rfl⟩ := mem_hoistGroups hoisted
  cases same.symm.trans shape
  obtain ⟨field, present, -, holds⟩ :=
    Generator.yieldsFields_mem fieldwise (Entries.mem_of_mem_ofList listed)
  obtain ⟨synthesizer, values, source, -, dictionary⟩ := ObjectParts.mem_groups built.groups present
  exact dictionary_freeOf (patterns _ values source) (dictionary ▸ holds)

/-- An object whose names avoid synthetic keys hoists to free values, if its parts do. -/
theorem object_hoistsFree {parts : ObjectParts} {generator : Generator}
    (compiled : compiler.object parts = .ok generator)
    (distinct : compiler.options.keys.Distinct)
    (names : ∀ entry ∈ parts.properties, compiler.options.keys.contains entry.1 = false)
    (required : ∀ name ∈ parts.required, compiler.options.keys.contains name = false)
    (properties : ∀ name value, (name, .ok value) ∈ parts.properties →
      value.HoistsFree compiler.options)
    (additional : ∀ values, parts.additional = some (.ok values) →
      values.HoistsFree compiler.options)
    (patterns : ∀ text values, (text, .ok values) ∈ parts.patterns →
      values.HoistsFree compiler.options) : generator.HoistsFree compiler.options := by
  intro drawn yielded
  obtain ⟨pieces, built, subset, -, record⟩ := object_yields compiled yielded
  obtain ⟨members, rfl, each, -⟩ := ObjectPieces.record_members record
  have plain : ∀ name field, Entries.get? pieces.fields name = some field →
      compiler.options.keys.contains name = false ∧ field.HoistsFree compiler.options := by
    intro name field found
    rcases ObjectPieces.get?_fields built found with declared | ⟨-, listed, same⟩
    · have present := Entries.mem_of_get?_eq_some declared
      exact ⟨names _ present, properties name field present⟩
    · refine ⟨required name listed, ?_⟩
      have source := optionally_eq_ok built.additional
      cases extra : pieces.additional with
      | none => rw [same, extra]; exact arbitrary_hoistsFree
      | some values =>
        rw [same, extra]
        exact additional values (by rw [source, extra]; rfl)
  -- A field stands under an ordinary key, and each container under the one key that splices it.
  refine hoist_obj_freeOf fun member present => ?_
  rcases each member present with ⟨-, field, found, holds⟩ | ⟨container, stands, named, holds⟩
  · obtain ⟨ordinary, free⟩ := plain member.1 field found
    obtain ⟨notAdditional, notPattern, notMerged⟩ := SyntheticKeys.contains_eq_false.mp ordinary
    exact ⟨fun _ => free member.2 holds, fun same => absurd same notAdditional,
      fun same => absurd same notPattern, fun same => absurd same notMerged⟩
  · obtain ⟨additionalPattern, additionalMerged, patternMerged⟩ := distinct
    rcases ObjectPieces.mem_containers stands with ⟨values, extra, rfl⟩ | ⟨rfl, -⟩
    · have free := additional values (by rw [optionally_eq_ok built.additional, extra]; rfl)
      refine ⟨fun plain => ?_, fun _ => dictionary_freeOf free holds, fun same => ?_, fun same => ?_⟩
      · simp [← named] at plain
      · exact absurd (named.trans same) additionalPattern
      · exact absurd (named.trans same) additionalMerged
    · refine ⟨fun plain => ?_, fun same => ?_, fun _ group hoisted => ?_, fun same => ?_⟩
      · simp [← named] at plain
      · exact absurd (named.trans same).symm additionalPattern
      · exact groups_freeOf built patterns holds hoisted
      · exact absurd (named.trans same) patternMerged

theorem mem_memberFields {members : List Generator} {place : Nat} {field : String × Generator}
    (present : field ∈ memberFields place members) : field.2 ∈ members := by
  induction members generalizing place with
  | nil => cases present
  | cons member rest ih =>
    rcases List.mem_cons.mp present with here | later
    · rw [here]
      exact List.mem_cons_self
    · exact List.mem_cons_of_mem _ (ih later)

theorem merged_hoistsFree {members : List Generator} (distinct : compiler.options.keys.Distinct)
    (each : ∀ member ∈ members, member.HoistsFree compiler.options) :
    (compiler.merged members).HoistsFree compiler.options := by
  obtain ⟨-, additionalMerged, patternMerged⟩ := distinct
  intro drawn yielded
  obtain ⟨outer, rfl, fieldwise⟩ := yielded
  refine hoist_obj_freeOf fun member present => ?_
  obtain ⟨field, listed, named, holds⟩ :=
    Generator.yieldsFields_mem fieldwise (Entries.mem_of_mem_ofList present)
  rw [List.mem_singleton.mp listed] at named holds
  refine ⟨fun plain => ?_, fun same => ?_, fun same => ?_, fun _ merged found value inside => ?_⟩
  · simp [← named] at plain
  · exact absurd (named.trans same).symm additionalMerged
  · exact absurd (named.trans same).symm patternMerged
  · obtain ⟨inner, shape, fieldwise⟩ := holds
    obtain ⟨_, same, rfl⟩ := hoistContainer_eq_some found
    cases shape.symm.trans same
    obtain ⟨raw, listed, rfl⟩ := List.mem_map.mp inside
    obtain ⟨field, there, -, holds⟩ :=
      Generator.yieldsFields_mem fieldwise (Entries.mem_of_mem_ofList listed)
    exact each field.2 (mem_memberFields there) raw.2 holds

/-! ## Compiled nodes -/

theorem choice_hoistsFree {label : String} {alternatives : List Generator} {minimal : Option Nat}
    {generator : Generator}
    (built : Generator.choiceOf label alternatives minimal = .ok generator)
    (each : ∀ alternative ∈ alternatives, alternative.HoistsFree compiler.options) :
    generator.HoistsFree compiler.options := by
  intro drawn yielded
  obtain ⟨alternative, present, holds⟩ := Generator.choiceOf_yields built yielded
  exact each alternative present drawn holds

/-- Basic nodes give values without synthetic keys before they are hoisted. -/
theorem compile_basic_freeOf {node : Node} (avoids : node.Avoids keys) (basic : node.IsBasic)
    {generator : Generator} (compiled : compiler.compile node = .ok generator) {options : Options}
    {reach : Nat → Json → Prop} {drawn : Json} (yielded : generator.Yields options reach drawn) :
    drawn.FreeOf keys := by
  cases avoids with
  | null =>
    cases compiled
    cases yielded
    exact .null
  | boolean =>
    cases compiled
    obtain ⟨value, rfl⟩ := yielded
    exact .bool
  | constant free =>
    cases compiled
    cases yielded
    exact free
  | enumeration free =>
    exact free drawn (Generator.enumerationOf_yields (Except.asInvalid_eq_ok.mp compiled) yielded)
  | integer =>
    rcases Generator.integerOf_yields (Except.asInvalid_eq_ok.mp compiled) yielded with
      ⟨value, rfl⟩ | ⟨value, rfl⟩
    · exact .int
    · exact .float
  | number =>
    rcases Generator.numberOf_yields (Except.asInvalid_eq_ok.mp compiled) yielded with
      ⟨value, rfl⟩ | ⟨value, rfl⟩
    · exact .int
    · exact .float
  | text =>
    obtain ⟨text, rfl⟩ := text_yields (Except.asInvalid_eq_ok.mp compiled) yielded
    exact .str
  | _ => exact basic.elim

/-- Nodes that avoid synthetic keys compile to generators whose values hoist without them. -/
theorem compile_hoistsFree (distinct : compiler.options.keys.Distinct)
    (closures : compiler.registry.ClosuresFreeOf compiler.options.keys) {node : Node}
    (avoids : node.Avoids compiler.options.keys) {generator : Generator}
    (compiled : compiler.compile node = .ok generator) :
    generator.HoistsFree compiler.options := by
  have basic {node : Node} (avoids : node.Avoids compiler.options.keys) (basic : node.IsBasic)
      {generator : Generator} (compiled : compiler.compile node = .ok generator) :
      generator.HoistsFree compiler.options :=
    fun _ yielded => hoist_freeOf (compile_basic_freeOf avoids basic compiled yielded)
  induction avoids generalizing generator with
  | null => exact basic .null trivial compiled
  | boolean => exact basic .boolean trivial compiled
  | constant free => exact basic (.constant free) trivial compiled
  | enumeration free => exact basic (.enumeration free) trivial compiled
  | integer => exact basic .integer trivial compiled
  | number => exact basic .number trivial compiled
  | text => exact basic .text trivial compiled
  | reference =>
    rw [compile] at compiled
    split at compiled
    next =>
      cases compiled
      exact fun drawn reached => reached
    next => cases compiled
  | list _ ih =>
    rw [compile] at compiled
    split at compiled
    next items inner =>
      intro drawn yielded
      obtain ⟨values, rfl, -, -, each⟩ :=
        Generator.arrayOf_yields (Except.asInvalid_eq_ok.mp compiled) yielded
      exact hoist_arr_freeOf fun value present => ih inner value (each value present)
    next => cases compiled
  | tuple _ ih =>
    rw [compile] at compiled
    split at compiled
    next generators all =>
      cases compiled
      rintro drawn ⟨values, rfl, each⟩
      refine hoist_arr_freeOf fun value present => ?_
      obtain ⟨generator, listed, holds⟩ :=
        Generator.exists_left_of_mem (Generator.yieldsEach_iff.mp each) present
      obtain ⟨item, there, own⟩ := Generator.exists_left_of_mem (compileAll_eq_ok all) listed
      exact ih item there own value holds
    next => cases compiled
  | @object spec names required _ _ _ properties additional patterns =>
    rw [compile, compileSpec, compileEntries_eq_map, compileEntries_eq_map] at compiled
    refine object_hoistsFree compiled distinct (fun entry present => ?_) required
      (fun name value present => ?_) (fun values same => ?_) fun text values present => ?_
    · obtain ⟨source, listed, rfl⟩ := List.mem_map.mp present
      exact names source listed
    · obtain ⟨source, listed, same⟩ := List.mem_map.mp present
      exact properties source listed (Prod.mk.inj same).2
    · dsimp only at same
      cases extra : spec.additional with
      | absent => rw [extra] at same; cases same
      | forbidden => rw [extra] at same; cases same
      | anything => rw [extra] at same; cases same; exact arbitrary_hoistsFree
      | schema node => rw [extra] at same; exact additional node extra (Option.some.inj same)
    · obtain ⟨source, listed, same⟩ := List.mem_map.mp present
      exact patterns source listed (Prod.mk.inj same).2
  | anyOf _ ih | oneOf _ ih =>
    rw [compile] at compiled
    split at compiled
    next generators all =>
      refine choice_hoistsFree (Except.asInvalid_eq_ok.mp compiled) fun alternative listed => ?_
      obtain ⟨member, there, own⟩ := Generator.exists_left_of_mem (compileAll_eq_ok all) listed
      exact ih member there own
    next => cases compiled
  | allOf _ ih =>
    rw [compile] at compiled
    split at compiled
    next generators all =>
      cases compiled
      refine merged_hoistsFree distinct fun generator listed => ?_
      obtain ⟨member, there, own⟩ := Generator.exists_left_of_mem (compileAll_eq_ok all) listed
      exact ih member there own
    next => cases compiled
  | negation =>
    -- Only arbitrary values are filtered, so the negated schema does not matter here.
    rw [compile] at compiled
    unfold negation at compiled
    split at compiled
    next =>
      cases compiled
      exact fun drawn yielded => arbitrary_hoistsFree drawn yielded.1
    next => cases compiled
  | custom =>
    rw [compile] at compiled
    unfold Registry.find at compiled
    split at compiled
    next found =>
      cases compiled
      obtain ⟨draw, same, free⟩ := closures _ (Entries.mem_of_get?_eq_some found)
      cases same
      rintro drawn ⟨source, rfl⟩
      exact hoist_freeOf (free source)
    next => cases compiled
  | anything =>
    cases compiled
    exact arbitrary_hoistsFree

end Compiler

/-! ## Samplers -/

namespace Sampler

/-- No synthetic key is left in a hoisted draw of a schema that does not use one itself. -/
theorem draw_freeOf {schema : Json} {options : Options} {registry : Registry} {sampler : Sampler}
    {document : Document} (parsed : Document.parse schema = .ok document)
    (avoids : document.Avoids options.keys) (closures : registry.ClosuresFreeOf options.keys)
    (distinct : options.keys.Distinct)
    (compiled : compileHoisted schema options registry = .ok sampler) {source : Source}
    {value : Json} (drawn : (sampler.draw source).1 = .ok value) : value.FreeOf options.keys := by
  obtain ⟨raw, rawCompiled, rfl⟩ := compileHoisted_eq_ok.mp compiled
  obtain ⟨_, same, slots, root, rfl⟩ := compile_eq_ok.mp rawCompiled
  cases parsed.symm.trans same
  have bodies : ∀ (slot : Nat) (body : Generator), raw.slots.bodies[slot]? = some body →
      body.HoistsFree raw.options := by
    intro slot body found
    rcases Document.slots_body slots found with ⟨-, gives⟩ | ⟨name, node, listed, -, gives⟩
    · exact Compiler.compile_hoistsFree distinct closures avoids.root gives
    · exact Compiler.compile_hoistsFree distinct closures (avoids.definitions _ listed) gives
  have closed : Generator.Closed raw.options raw.slots.bodies
      fun _ value => (hoist raw.options.keys value).FreeOf raw.options.keys :=
    fun slot body value found yielded => bodies slot body found value yielded
  obtain ⟨inner, yielded, rfl⟩ := Generator.draw_yields closed drawn
  exact bodies rootSlot raw.entry root inner yielded

/-- A property beside further members that are truth values. -/
def flagsSchema : Json :=
  .obj [("additionalProperties", .obj [("type", .str "boolean")]),
    ("properties", .obj [("a", .obj [("type", .str "null")])]), ("required", .arr [.str "a"])]

def flagsDocument : Document :=
  ⟨.object ⟨[("a", .null)], ["a"], .schema .boolean, [], [], []⟩, [], .obj []⟩

def flagsBody : Generator :=
  .record [("a", .constant .null),
    ("__jsonalchemy_additional_properties__", .dictionary (.text 16) .boolean 4 ["a"] [])]

def flagsSampler : Sampler := ⟨.map flagsBody (hoist {}), ⟨["#"], [flagsBody]⟩, {}⟩

theorem flags_avoid : flagsDocument.Avoids {} where
  root := by
    refine .object ?_ ?_ ?_ ?_ nofun
    · exact fun entry present => List.mem_singleton.mp present ▸ by decide
    · exact fun name present => List.mem_singleton.mp present ▸ by decide
    · exact fun entry present => List.mem_singleton.mp present ▸ .null
    · rintro node ⟨⟩
      exact .boolean
  definitions := nofun

theorem flags_draw_freeOf :
    Document.parse flagsSchema = .ok flagsDocument ∧ flagsDocument.Avoids {} ∧
      SyntheticKeys.Distinct {} ∧ compileHoisted flagsSchema {} [] = .ok flagsSampler ∧
      (flagsSampler.draw (.cycle #[0x50000000, 7])).1 =
        .ok (.obj [("", .bool true), ("a", .null)]) ∧
      (Json.obj [("", .bool true), ("a", .null)]).FreeOf {} := by
  have parsed : Document.parse flagsSchema = .ok flagsDocument := rfl
  have distinct : SyntheticKeys.Distinct {} := ⟨by decide, by decide, by decide⟩
  have closures : Registry.ClosuresFreeOf [] {} := fun _ absent => absurd absent List.not_mem_nil
  have compiled : compileHoisted flagsSchema {} [] = .ok flagsSampler := by cbv
  have drawn : (flagsSampler.draw (.cycle #[0x50000000, 7])).1 =
      .ok (.obj [("", .bool true), ("a", .null)]) := by cbv
  exact ⟨parsed, flags_avoid, distinct, compiled, drawn,
    draw_freeOf parsed flags_avoid closures distinct compiled drawn⟩

end Sampler

end SchemaSampler
