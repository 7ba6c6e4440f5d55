import SchemaSampler.Proofs.Compile.Slots
import SchemaSampler.Proofs.Hoist.Records
import SchemaSampler.Proofs.Validity.Classified

/-!
# Records of the fragment

A record of the fragment is drawn member by member. The schema that governs a name is the declared
one, or else the one for further members; whatever stands under a name is drawn by a generator that
was compiled from the schema that governs it.

Results:
1. `additional_cases`: when further members are drawn, and from which schema.
2. `field_compiles`: the generator of a field comes from the schema that governs its name.
3. `record_drawn`: the members of a hoisted record.
-/

namespace SchemaSampler

namespace Schema

variable {compiler : Compiler} {generator : Generator} {drawn : Json}

/-- The schema of a generator that it was classified and compiled to. -/
def CompilesTo (compiler : Compiler) (schema : Json) (generator : Generator) : Prop :=
  ∃ depth node, Node.classifyWithin depth schema = .ok node ∧ compiler.compile node = .ok generator

/-- The values of further members are drawn just when their schema is not `false`. -/
theorem additional_cases {below : Nat} {schema : Option Json} {additional : Additional Node}
    {values : Option Generator}
    (classified : Node.classifyAdditional (Node.classifyWithin below) schema = .ok additional)
    (compiled : Compiler.optionally (compiler.compileAdditional additional) = .ok values) :
    (values = none ∧ ∀ stated, schema = some stated → stated = .bool false) ∨
      ∃ stated generator, schema = some stated ∧ stated ≠ .bool false ∧
        values = some generator ∧ CompilesTo compiler stated generator := by
  have source := Compiler.optionally_eq_ok compiled
  unfold Node.classifyAdditional at classified
  split at classified
  next =>
    cases classified
    exact .inl ⟨Option.map_eq_none_iff.mp source.symm, nofun⟩
  next =>
    cases classified
    refine .inl ⟨Option.map_eq_none_iff.mp source.symm, ?_⟩
    rintro stated ⟨⟩
    rfl
  next =>
    cases classified
    obtain ⟨generator, rfl, same⟩ := Option.map_eq_some_iff.mp source.symm
    cases same
    exact .inr ⟨_, _, rfl, nofun, rfl, 1, .anything, rfl, rfl⟩
  next stated notFalse notTrue =>
    obtain ⟨node, own, same⟩ := Except.bind_eq_ok.mp classified
    cases same
    obtain ⟨generator, rfl, same⟩ := Option.map_eq_some_iff.mp source.symm
    exact .inr ⟨stated, generator, rfl, notFalse, rfl, below, node, own, same.symm⟩

/-- The schema that the record has for members of the name. -/
def RecordKeywords.Governs (keywords : RecordKeywords) (name : String) (schema : Json) : Prop :=
  Entries.get? keywords.declared name = some schema ∨
    name ∉ Entries.names keywords.declared ∧ keywords.additional = some schema

section Record

variable {keywords : RecordKeywords} {below : Nat} {properties : List (String × Node)}
  (classified : (keywords.declared.map fun entry => (entry.1, Node.classifyWithin below entry.2)) =
    properties.map fun entry => (entry.1, .ok entry.2))

include classified

theorem names_compiled : Entries.names (compiler.compileEntries properties) =
    Entries.names keywords.declared := by
  have names := congrArg Entries.names classified
  simp only [Entries.names, List.map_map, Function.comp_def] at names
  rw [Compiler.compileEntries_eq_map]
  simp only [Entries.names, List.map_map, Function.comp_def, names]

/-- A declared field is compiled from its schema. -/
theorem declared_compiles {name : String} {field : Generator}
    (found : Entries.get? (compiler.compileEntries properties) name = some (.ok field)) :
    ∃ schema, Entries.get? keywords.declared name = some schema ∧
      CompilesTo compiler schema field := by
  rw [Compiler.compileEntries_eq_map, Entries.get?_map properties name compiler.compile,
    Option.map_eq_some_iff] at found
  obtain ⟨node, listed, compiled⟩ := found
  have lookups := congrArg (Entries.get? · name) classified
  rw [Entries.get?_map keywords.declared name (Node.classifyWithin below),
    Entries.get?_map properties name (fun node => (.ok node : Node.Classified Node)), listed]
    at lookups
  obtain ⟨schema, stated, own⟩ := Option.map_eq_some_iff.mp lookups
  exact ⟨schema, stated, below, node, own, compiled⟩

/-- Every field is compiled from the schema that governs its name. -/
theorem field_compiles {parts : Compiler.ObjectParts} {pieces : compiler.ObjectPieces parts}
    (built : pieces.Compiled) (stated : parts.properties = compiler.compileEntries properties)
    (wanted : parts.required = keywords.wanted) {additional : Additional Node}
    (further : Node.classifyAdditional (Node.classifyWithin below) keywords.additional =
      .ok additional) (extra : parts.additional = compiler.compileAdditional additional)
    (consistent : keywords.Consistent compiler.options.keys) {name : String} {field : Generator}
    (found : Entries.get? pieces.fields name = some field) {schema : Json}
    (governs : keywords.Governs name schema) : CompilesTo compiler schema field := by
  rcases Compiler.ObjectPieces.get?_fields built found with own | ⟨undeclared, required, same⟩
  · obtain ⟨_, listed, compiles⟩ := declared_compiles classified (stated ▸ own)
    rcases governs with governed | ⟨absent, -⟩
    · cases governed.symm.trans listed
      exact compiles
    · rw [Entries.get?_eq_none_iff.mpr absent] at listed
      cases listed
  · -- A required name that is not declared is governed by the schema for further members.
    have absent : name ∉ Entries.names keywords.declared := by
      rw [← names_compiled classified, ← stated]
      exact Entries.get?_eq_none_iff.mp undeclared
    have given : keywords.additional = some schema := by
      rcases governs with governed | ⟨-, given⟩
      · rw [Entries.get?_eq_none_iff.mpr absent] at governed
        cases governed
      · exact given
    rcases additional_cases further (extra ▸ built.additional) with
      ⟨-, forbidden⟩ | ⟨_, generator, stated, -, some, compiles⟩
    · have falsity := forbidden schema given
      exact absurd (consistent.wanted_declared (falsity ▸ given) (wanted ▸ required)) absent
    · cases stated.symm.trans given
      rw [same, some]
      exact compiles

end Record

/-- A hoisted record has the wanted names and whatever these depend on, and every member is drawn
for the schema that governs it. -/
theorem record_drawn {keywords : RecordKeywords}
    (consistent : keywords.Consistent compiler.options.keys)
    (present : ∀ schema, keywords.additional = some schema → schema ≠ .null)
    (compiles : CompilesTo compiler (.obj keywords.members) generator)
    {reach : Nat → Json → Prop} (yielded : generator.Yields compiler.options reach drawn) :
    ∃ members, hoist compiler.options.keys drawn = .obj members ∧
      keywords.wanted ⊆ Entries.names members ∧
      (∀ key names, (key, names) ∈ keywords.between → key ∈ Entries.names members →
        names ⊆ Entries.names members) ∧
      ∀ name value, (name, value) ∈ members → ∃ raw, value = hoist compiler.options.keys raw ∧
        ∀ schema, keywords.Governs name schema → ∃ generator,
          CompilesTo compiler schema generator ∧ generator.Yields compiler.options reach raw := by
  obtain ⟨depth, node, classified, compiled⟩ := compiles
  obtain ⟨below, properties, additional, schemaDependencies, rfl, declared, further⟩ :=
    classify_record present classified
  rw [Compiler.compile, Compiler.compileSpec] at compiled
  obtain ⟨pieces, built, subset, admissible, yielded⟩ := Compiler.object_yields compiled yielded
  have names : Entries.names (compiler.compileEntries properties) =
      Entries.names keywords.declared := names_compiled declared
  have reserved (name : String) : name ∈ pieces.reserved ↔
      name ∈ Entries.names keywords.declared ∨ name ∈ keywords.wanted := by
    rw [Compiler.ObjectPieces.mem_reserved built, names]
  have closed := (Compiler.mem_propertySets.mp admissible).2
  have known : keywords.wanted.eraseDups ++ subset ⊆ pieces.reserved := fun name listed =>
    (Compiler.ObjectPieces.mem_reserved built).mpr (Compiler.known_of_sets admissible name listed)
  have plain (name : String) (listed : name ∈ pieces.reserved) :
      compiler.options.keys.contains name = false :=
    ((reserved name).mp listed).elim (consistent.declared_free name) (consistent.wanted_free name)
  obtain ⟨members, hoisted, all, each⟩ :=
    Compiler.ObjectPieces.hoisted_record built rfl plain known yielded
  have extra := additional_cases further built.additional
  refine ⟨members, hoisted, fun name wanted => ?_, fun key list listed there => ?_,
    fun name value listed => ?_⟩
  · exact all (List.mem_append_left _ (List.mem_eraseDups.mpr wanted))
  · obtain ⟨⟨_, value⟩, inside, rfl⟩ := List.mem_map.mp there
    obtain ⟨raw, -, ⟨own, -⟩ | ⟨free, values, some, -⟩⟩ := each _ value inside
    · -- The keys of the record were chosen to contain whatever they depend on.
      have found := Entries.get?_eq_some_of_mem consistent.between_distinct listed
      exact fun name dependent =>
        all (Compiler.dependenciesHold_iff.mp closed _ own list found dependent)
    · -- A further entry has a name that is not reserved, and keys with dependencies are.
      rcases extra with ⟨none, -⟩ | ⟨schema, _, given, notFalse, -⟩
      · cases none.symm.trans some
      · have key := Entries.mem_names_of_mem listed
        exact absurd ((reserved _).mpr (consistent.between_declared schema given notFalse _ key)) free
  · obtain ⟨raw, same, ⟨own, field, found, holds⟩ | ⟨free, values, some, holds⟩⟩ := each name value listed
    · exact ⟨raw, same, fun schema governs =>
        ⟨field, field_compiles declared built rfl rfl further rfl consistent found governs, holds⟩⟩
    · refine ⟨raw, same, fun schema governs => ⟨values, ?_, holds⟩⟩
      rcases governs with governed | ⟨-, given⟩
      · have declared := Entries.mem_names_of_mem (Entries.mem_of_get?_eq_some governed)
        exact absurd ((reserved name).mpr (.inl declared)) free
      · rcases extra with ⟨none, -⟩ | ⟨_, _, stated, -, also, compiles⟩
        · cases none.symm.trans some
        · cases stated.symm.trans given
          cases also.symm.trans some
          exact compiles

end Schema

end SchemaSampler
