import SchemaSampler.Proofs.Compile.Parts
import SchemaSampler.Proofs.Draw.Drawn
import SchemaSampler.Proofs.Hoist.Parts

/-!
# Members of hoisted objects

The record of a compiled object draws its fields under their names and the dynamic keys in
containers. Once it is hoisted, a member is a field, an additional entry or an entry of a pattern's
group, and no field is lost. Only where both containers have the same key, the groups stand in for
the additional entries and the texts of patterns become keys.

Results:
1. `hoist_of_containers`: hoisting splices the two containers of dynamic keys.
2. `ObjectPieces.hoisted_record_draws`: where the members of a hoisted record come from.
3. `Compiler.hoisted_object_draws`: the same of a compiled object and one of its sets of names.
-/

namespace SchemaSampler

variable {keys : SyntheticKeys}

/-! ## Objects with containers -/

/-- The key is that of a container of dynamic keys. -/
def IsContainerKey (keys : SyntheticKeys) (key : String) : Prop :=
  key = keys.additionalProperties ∨ key = keys.patternProperties

theorem merged_eq_none {members : List (String × Json)}
    (each : ∀ member ∈ members, keys.contains member.1 = false ∨ IsContainerKey keys member.1) :
    (hoistParts keys members).merged = none := by
  induction members with
  | nil => rfl
  | cons member rest ih =>
    obtain ⟨key, value⟩ := member
    have later := ih fun other present => each other (List.mem_cons_of_mem _ present)
    rw [hoistParts]
    split
    · exact later
    · split
      · exact later
      next notAdditional notPattern =>
        have ordinary := (each (key, value) List.mem_cons_self).resolve_right fun container =>
          container.elim notAdditional notPattern
        rw [if_neg (SyntheticKeys.contains_eq_false.mp ordinary).2.2]
        exact later

/-- Under one key for both containers all dynamic keys are additional. -/
theorem groups_eq_nil_of_same (same : keys.additionalProperties = keys.patternProperties)
    (members : List (String × Json)) : (hoistParts keys members).groups = [] := by
  induction members with
  | nil => rfl
  | cons member rest ih =>
    obtain ⟨key, value⟩ := member
    rw [hoistParts, ← same]
    split
    · exact ih
    · split <;> exact ih

theorem hoist_of_containers {members : List (String × Json)}
    (each : ∀ member ∈ members, keys.contains member.1 = false ∨ IsContainerKey keys member.1) :
    hoist keys (.obj members) = .obj (hoistParts keys members).spliced := by
  rw [hoist, HoistedParts.assemble, merged_eq_none each]

namespace HoistedParts

theorem mem_spliced {parts : HoistedParts} {member : String × Json}
    (present : member ∈ parts.spliced) :
    member ∈ parts.ordinary ∨ member ∈ parts.additional ∨
      ∃ group ∈ parts.groups, member ∈ group := by
  rcases Entries.mem_of_mem_foldl_insertAll present with early | grouped
  · rcases Entries.mem_of_mem_insertAll early with ordinary | additional
    · exact .inl ordinary
    · exact .inr (.inl additional)
  · exact .inr (.inr grouped)

theorem mem_names_spliced {parts : HoistedParts} {name : String}
    (present : name ∈ Entries.names parts.ordinary) : name ∈ Entries.names parts.spliced :=
  Entries.mem_names_foldl_insertAll (Entries.mem_names_insertAll.mpr (.inl present)) parts.groups

end HoistedParts

/-! ## Records -/

namespace Compiler

variable {compiler : Compiler} {parts : ObjectParts} {bodies : Generator.Bodies} {depth : Nat}
  {names : List String} {raw : Json}

namespace ObjectPieces

variable {pieces : ObjectPieces compiler parts}

/-- Where the members of a hoisted object come from. -/
inductive Origin (pieces : ObjectPieces compiler parts) (bodies : Generator.Bodies) (depth : Nat)
    (names : List String) : String → Json → Prop
  /-- A field of the record. -/
  | field {name : String} {field : Generator} {raw : Json} : name ∈ names →
      Entries.get? pieces.fields name = some field →
      field.Draws compiler.options bodies depth raw →
      Origin pieces bodies depth names name (hoist compiler.options.keys raw)
  /-- An additional entry, whose key matches no pattern. -/
  | further {name : String} {values : Generator} {raw : Json} : name ∉ pieces.reserved →
      (∀ matcher ∈ pieces.matchers, matcher.2.isMatch name = false) →
      pieces.additional = some values → values.Draws compiler.options bodies depth raw →
      Origin pieces bodies depth names name (hoist compiler.options.keys raw)
  /-- An entry of a pattern's group, whose key matches no other pattern. -/
  | grouped {name text : String} {values : Generator} {raw : Json} : name ∉ pieces.reserved →
      (∀ matcher ∈ pieces.matchers, matcher.1 ≠ text → matcher.2.isMatch name = false) →
      (text, .ok values) ∈ parts.patterns → values.Draws compiler.options bodies depth raw →
      Origin pieces bodies depth names name (hoist compiler.options.keys raw)
  /-- A group under the text of its pattern, where the containers have one key. -/
  | group {name : String} {value : Json} :
      compiler.options.keys.additionalProperties = compiler.options.keys.patternProperties →
      name ∈ Entries.names parts.patterns → Origin pieces bodies depth names name value

theorem origin_of_additional {values : Generator} (found : pieces.additional = some values)
    (drawn : (ObjectParts.additionalEntries compiler.options pieces.reserved pieces.matchers
      values).Draws compiler.options bodies depth raw) {entry : String × Json}
    (present : entry ∈ hoistEntries compiler.options.keys raw) :
    pieces.Origin bodies depth names entry.1 entry.2 := by
  obtain ⟨_, rfl, each⟩ := drawn.of_dictionary
  obtain ⟨_, member, ⟨⟩, listed, rfl⟩ := mem_hoistEntries present
  obtain ⟨admits, -, value⟩ := each member listed
  obtain ⟨free, -, unmatched⟩ := admitsKey_iff.mp admits
  exact .further free (fun matcher read => unmatched _ (List.mem_map_of_mem read)) found value

/-- What the record of groups draws: for every pattern a dictionary of its values. -/
theorem groups_draw (names : List String) (built : pieces.Compiled)
    (drawn : (Generator.record pieces.groups).Draws compiler.options bodies depth raw) :
    ∃ groups : Entries Json, raw = .obj groups ∧ ∀ group ∈ groups,
      group.1 ∈ Entries.names parts.patterns ∧
      ∀ entry ∈ hoistEntries compiler.options.keys group.2,
        pieces.Origin bodies depth names entry.1 entry.2 := by
  obtain ⟨members, rfl, fieldwise⟩ := drawn.of_record
  refine ⟨Entries.ofList members, rfl, fun member present => ?_⟩
  obtain ⟨group, listed, named, dictionary⟩ :=
    Generator.exists_left_of_mem fieldwise (Entries.mem_of_mem_ofList present)
  obtain ⟨synthesizer, values, source, -, same⟩ := ObjectParts.mem_groups built.groups listed
  refine ⟨named ▸ Entries.mem_names_of_mem source, fun entry hoisted => ?_⟩
  rw [same] at dictionary
  obtain ⟨_, shape, each⟩ := dictionary.of_dictionary
  rw [shape] at hoisted
  obtain ⟨_, inner, ⟨⟩, inside, rfl⟩ := mem_hoistEntries hoisted
  obtain ⟨admits, -, value⟩ := each inner inside
  obtain ⟨free, -, unmatched⟩ := admitsKey_iff.mp admits
  refine .grouped free (fun matcher read other => unmatched _ ?_) source value
  exact List.mem_map_of_mem (List.mem_filter.mpr ⟨read, by simpa using other⟩)

theorem container_key {container : String × Generator} (stands : container ∈ pieces.containers) :
    IsContainerKey compiler.options.keys container.1 := by
  rcases mem_containers stands with ⟨_, -, rfl⟩ | ⟨rfl, -⟩
  · exact .inl rfl
  · exact .inr rfl

/-! The members of a raw record, and where the parts of the hoisted one come from. -/

section Raw

variable {members : Entries Json}
  (built : pieces.Compiled)
  (each : ∀ member ∈ members,
    (member.1 ∈ names ∧ ∃ field, Entries.get? pieces.fields member.1 = some field ∧
      field.Draws compiler.options bodies depth member.2) ∨
    ∃ container ∈ pieces.containers, container.1 = member.1 ∧
      container.2.Draws compiler.options bodies depth member.2)
  (plain : ∀ name ∈ names, compiler.options.keys.contains name = false)

include each

theorem origin_of_ordinary {entry : String × Json}
    (present : entry ∈ (hoistParts compiler.options.keys members).ordinary) :
    pieces.Origin bodies depth names entry.1 entry.2 := by
  obtain ⟨member, there, free, rfl⟩ := mem_ordinary.mp present
  rcases each member there with ⟨own, field, found, value⟩ | ⟨_, stands, named, -⟩
  · exact .field own found value
  · rcases container_key stands with same | same <;> simp [← named, same] at free

include plain

theorem ordinary_or_container : ∀ member ∈ members,
    compiler.options.keys.contains member.1 = false ∨
      IsContainerKey compiler.options.keys member.1 := by
  intro member listed
  rcases each member listed with ⟨own, -⟩ | ⟨_, stands, named, -⟩
  · exact .inl (plain _ own)
  · exact .inr (named ▸ container_key stands)

/-- A field never stands under the key of a container. -/
theorem exists_container {key : String} {value : Json} (there : (key, value) ∈ members)
    (synthetic : compiler.options.keys.contains key = true) :
    ∃ container ∈ pieces.containers, container.1 = key ∧
      container.2.Draws compiler.options bodies depth value := by
  refine (each _ there).resolve_left fun ⟨own, _⟩ => ?_
  rw [plain _ own] at synthetic
  cases synthetic

include built

theorem origin_of_spliced_additional {entry : String × Json}
    (present : entry ∈ (hoistParts compiler.options.keys members).additional) :
    pieces.Origin bodies depth names entry.1 entry.2 := by
  obtain ⟨value, there, hoisted⟩ := of_mem_additional present
  obtain ⟨_, stands, named, draws⟩ := exists_container each plain there (by simp)
  rcases mem_containers stands with ⟨values, extra, rfl⟩ | ⟨rfl, -⟩
  · exact origin_of_additional extra draws hoisted
  · obtain ⟨groups, rfl, all⟩ := groups_draw names built draws
    obtain ⟨_, group, ⟨⟩, inside, rfl⟩ := mem_hoistEntries hoisted
    exact .group named.symm (all group inside).1

theorem origin_of_spliced_group {group : Entries Json}
    (present : group ∈ (hoistParts compiler.options.keys members).groups)
    {entry : String × Json} (inside : entry ∈ group) :
    pieces.Origin bodies depth names entry.1 entry.2 := by
  have apart : compiler.options.keys.additionalProperties ≠ compiler.options.keys.patternProperties := by
    intro same
    rw [groups_eq_nil_of_same same] at present
    cases present
  obtain ⟨value, there, hoisted⟩ := of_mem_groups present
  obtain ⟨_, stands, named, draws⟩ := exists_container each plain there (by simp)
  rcases mem_containers stands with ⟨_, -, rfl⟩ | ⟨rfl, -⟩
  · exact absurd named apart
  · obtain ⟨groups, rfl, all⟩ := groups_draw names built draws
    obtain ⟨_, group, ⟨⟩, listed, rfl⟩ := mem_hoistGroups hoisted
    exact (all group listed).2 entry inside

end Raw

/-- A hoisted record is an object with all its names, and each member has an origin. -/
theorem hoisted_record_draws (built : pieces.Compiled)
    (plain : ∀ name ∈ names, compiler.options.keys.contains name = false)
    (known : names ⊆ pieces.reserved)
    (drawn : (pieces.record names).Draws compiler.options bodies depth raw) :
    ∃ members, hoist compiler.options.keys raw = .obj members ∧
      names ⊆ Entries.names members ∧
      ∀ member ∈ members, pieces.Origin bodies depth names member.1 member.2 := by
  obtain ⟨fields, rfl, fieldwise⟩ := drawn.of_record
  obtain ⟨each, present⟩ := members_of_fieldwise fieldwise
  have shape := ordinary_or_container each plain
  refine ⟨_, hoist_of_containers shape, fun name own => ?_, fun member listed => ?_⟩
  · obtain ⟨member, there, rfl⟩ := List.mem_map.mp (present name own (known own))
    have kept := mem_ordinary.mpr ⟨member, there, plain _ own, rfl⟩
    exact HoistedParts.mem_names_spliced (List.mem_map.mpr ⟨_, kept, rfl⟩)
  · rcases HoistedParts.mem_spliced listed with ordinary | additional | ⟨group, grouped, inside⟩
    · exact origin_of_ordinary each ordinary
    · exact origin_of_spliced_additional built each plain additional
    · exact origin_of_spliced_group built each plain grouped inside

end ObjectPieces

/-! ## Objects -/

theorem object_draws {generator : Generator} (compiled : compiler.object parts = .ok generator)
    {options : Options} (drawn : generator.Draws options bodies depth raw) :
    ∃ pieces : ObjectPieces compiler parts, pieces.Compiled ∧ ∃ subset ∈ parts.sets,
      (pieces.record (parts.required.eraseDups ++ subset)).Draws options bodies depth raw := by
  obtain ⟨pieces, built, ⟨subset, alone, rfl⟩ | chosen⟩ := object_eq_ok compiled
  · exact ⟨pieces, built, subset, alone ▸ List.mem_singleton_self _, drawn⟩
  · obtain ⟨minimal, rfl⟩ := Generator.choiceOf_eq_choice chosen
    obtain ⟨record, listed, own⟩ := drawn.of_choice
    obtain ⟨subset, present, rfl⟩ := List.mem_map.mp listed
    exact ⟨pieces, built, subset, present, own⟩

/-- A hoisted draw of an object with ordinary names has the names of one of its sets, and each
member has an origin. -/
theorem hoisted_object_draws {spec : ObjectSpec Node} {generator : Generator}
    (compiled : compiler.compile (.object spec) = .ok generator)
    (properties : ∀ name ∈ Entries.names spec.properties,
      compiler.options.keys.contains name = false)
    (required : ∀ name ∈ spec.required, compiler.options.keys.contains name = false)
    {value : Json} (drawn : (Generator.map generator (hoist compiler.options.keys)).Draws
      compiler.options bodies depth value) :
    ∃ pieces : ObjectPieces compiler (compiler.parts spec), pieces.Compiled ∧
      ∃ subset ∈ (compiler.parts spec).sets, ∃ members, value = .obj members ∧
      spec.required.eraseDups ++ subset ⊆ Entries.names members ∧
      ∀ member ∈ members,
        pieces.Origin bodies depth (spec.required.eraseDups ++ subset) member.1 member.2 := by
  rw [compile_object] at compiled
  obtain ⟨raw, own, rfl⟩ := drawn.of_map
  obtain ⟨pieces, built, subset, present, record⟩ := object_draws compiled own
  have source := known_of_sets present
  have plain : ∀ name ∈ spec.required.eraseDups ++ subset,
      compiler.options.keys.contains name = false := by
    intro name listed
    exact (source name listed).elim (by simpa using properties name) (required name)
  obtain ⟨members, same, named, each⟩ := ObjectPieces.hoisted_record_draws built plain
    (fun name listed => (ObjectPieces.mem_reserved built).mpr (source name listed)) record
  exact ⟨pieces, built, subset, present, members, same, named, each⟩

end Compiler

end SchemaSampler
