import SchemaSampler.Proofs.Hoist.DeclarationOrder
import SchemaSampler.Proofs.Hoist.Dependencies
import SchemaSampler.Proofs.Validity.Records
import SchemaSampler.Proofs.Validity.References

/-!
# Members with names of their own

The members of an `allOf` schema are drawn apart and merged afterwards. Record schemas that share no
property name do not get in each other's way: every name of the merged object comes from the member
that declares it, so what a member required, declared or made dependent is as it was drawn.

Results:
1. `hoist_objects`, `hoist_memberSlots`: a container of objects is hoisted to one object.
2. `record_filled`: the members that a record schema draws.
3. `merged_record_passes`: a record keeps what it asks for when others join it.
4. `Sampler.disjoint_records_pass`: draws of an `allOf` schema pass every member.
-/

namespace SchemaSampler

open Entries (MergedFrom)
open Draw (InTurn)
open HoistedParts (membersOf)

/-! ## Hoisted containers of objects -/

theorem hoist_of_ordinary {keys : SyntheticKeys} {members : Entries Json}
    (ordinary : ∀ member ∈ members, keys.contains member.1 = false) :
    hoist keys (.obj members) = .obj (hoistedEntries keys members) := by
  rw [hoist, hoistParts_of_ordinary ordinary]
  rfl

/-- If the key of the container is not also the one of additional entries, objects in it are merged,
whether as members or as groups. -/
theorem hoist_objects {keys : SyntheticKeys} (apart : keys.allOf ≠ keys.additionalProperties)
    {slots : Entries Json} (filled : slots ≠ [])
    (each : ∀ slot ∈ slots, ∃ members, slot.2 = .obj members ∧
      ∀ member ∈ members, keys.contains member.1 = false) :
    ∃ entries, hoist keys (.obj [(keys.allOf, .obj slots)]) = .obj entries ∧
      MergedFrom (slots.map fun slot => hoistedEntries keys (membersOf slot.2)) entries := by
  by_cases grouped : keys.allOf = keys.patternProperties
  · have parts : hoistParts keys [(keys.allOf, .obj slots)] =
        { groups := slots.map fun slot => hoistedEntries keys (membersOf slot.2) } := by
      simp [hoistParts, apart, ← grouped, hoistGroups_eq, membersOf]
    refine ⟨_, by rw [hoist, parts]; rfl, MergedFrom.nil.foldl_insertAll _⟩
  · have same : (slots.map fun slot => hoist keys slot.2).map membersOf =
        slots.map fun slot => hoistedEntries keys (membersOf slot.2) := by
      rw [List.map_map]
      refine List.map_congr_left fun slot listed => ?_
      obtain ⟨members, shape, ordinary⟩ := each slot listed
      simp [shape, hoist_of_ordinary ordinary, membersOf]
    obtain ⟨first, listed⟩ := List.exists_mem_of_ne_nil slots filled
    obtain ⟨members, shape, ordinary⟩ := each first listed
    have object : ∃ value ∈ slots.map fun slot => hoist keys slot.2, value.isObject = true := by
      refine ⟨_, List.mem_map_of_mem listed, ?_⟩
      rw [shape, hoist_of_ordinary ordinary]
      rfl
    rw [← same]
    exact (hoist_container apart grouped filled).2 object

/-- Objects in the slots of a container are merged, in some order. -/
theorem hoist_memberSlots {keys : SyntheticKeys} (apart : keys.allOf ≠ keys.additionalProperties)
    {raws : List Json} (filled : raws ≠ [])
    (each : ∀ raw ∈ raws, ∃ members, raw = .obj members ∧
      ∀ member ∈ members, keys.contains member.1 = false) :
    ∃ entries sources,
      hoist keys (.obj [(keys.allOf, .obj (Compiler.memberSlots raws))]) = .obj entries ∧
      sources.Perm (raws.map fun raw => hoistedEntries keys (membersOf raw)) ∧
      MergedFrom sources entries := by
  have perm := Compiler.values_memberSlots_perm raws
  have slots : Compiler.memberSlots raws ≠ [] := fun empty =>
    filled (Compiler.memberSlots_eq_nil_iff.mp empty)
  obtain ⟨entries, same, merged⟩ := hoist_objects apart slots fun slot listed =>
    each slot.2 (perm.mem_iff.mp (List.mem_map_of_mem listed))
  refine ⟨entries, _, same, ?_, merged⟩
  have sources := perm.map fun raw => hoistedEntries keys (membersOf raw)
  rwa [Entries.values, List.map_map] at sources

/-! ## Records without containers -/

/-- Where neither further members nor patterns are stated, a record draws its fields only. -/
theorem Compiler.ObjectPieces.closed_record_draws {compiler : Compiler} {parts : ObjectParts}
    {pieces : ObjectPieces compiler parts} (built : pieces.Compiled)
    (closed : pieces.additional = none) (unpatterned : parts.patterns = []) {names : List String}
    (known : names ⊆ pieces.reserved) {options : Options} {bodies : Generator.Bodies} {depth : Nat}
    {raw : Json} (drawn : (pieces.record names).Draws options bodies depth raw) :
    ∃ members, raw = .obj members ∧ names ⊆ Entries.names members ∧
      ∀ member ∈ members, member.1 ∈ names ∧ ∃ field,
        Entries.get? pieces.fields member.1 = some field ∧
          field.Draws options bodies depth member.2 := by
  obtain ⟨fields, rfl, fieldwise⟩ := drawn.of_record
  obtain ⟨each, present⟩ := members_of_fieldwise fieldwise
  refine ⟨_, rfl, fun name listed => present name listed (known listed), fun member listed => ?_⟩
  refine (each member listed).resolve_right fun ⟨_, stands, _⟩ => ?_
  rcases mem_containers stands with ⟨values, some, -⟩ | ⟨-, grouped⟩
  · cases closed.symm.trans some
  · exact grouped (groups_eq_nil built unpatterned)

namespace Schema

/-! ## Records of an `allOf` schema -/

/-- An object schema of properties, required names and dependencies between names, whose required
names and keys of dependencies are properties. -/
structure RecordKeywords.SelfContained (keys : SyntheticKeys) (keywords : RecordKeywords) :
    Prop where
  additional : keywords.additional = none
  definitions : keywords.definitions = none
  free : ∀ name ∈ Entries.names keywords.declared, keys.contains name = false
  wanted : keywords.wanted ⊆ Entries.names keywords.declared
  depending : Entries.names keywords.between ⊆ Entries.names keywords.declared
  distinct : (Entries.names keywords.between).Nodup

theorem RecordKeywords.SelfContained.consistent {keys : SyntheticKeys} {keywords : RecordKeywords}
    (own : keywords.SelfContained keys) : keywords.Consistent keys where
  declared_free := own.free
  wanted_free := fun name wanted => own.free name (own.wanted wanted)
  wanted_declared := by simp [own.additional]
  between_distinct := own.distinct
  between_declared := by simp [own.additional]

variable {compiler : Compiler} {bodies : Generator.Bodies} {depth : Nat}
  {keywords : RecordKeywords} {generator : Generator} {raw : Json} {members : Entries Json}

/-- The members fill a record: they have declared names only, all the required ones, with a name
whatever it depends on, and each is drawn for its schema. -/
structure RecordKeywords.Filled (compiler : Compiler) (bodies : Generator.Bodies) (depth : Nat)
    (keywords : RecordKeywords) (members : Entries Json) : Prop where
  known : Entries.names members ⊆ Entries.names keywords.declared
  wanted : keywords.wanted ⊆ Entries.names members
  closed : ∀ key names, (key, names) ∈ keywords.between → key ∈ Entries.names members →
    names ⊆ Entries.names members
  drawn : ∀ name value, (name, value) ∈ members → ∀ schema,
    Entries.get? keywords.declared name = some schema →
    ∃ field, CompilesTo compiler schema field ∧ field.Draws compiler.options bodies depth value

theorem record_filled (own : keywords.SelfContained compiler.options.keys)
    (compiles : CompilesTo compiler (.obj keywords.members) generator)
    (drawn : generator.Draws compiler.options bodies depth raw) :
    ∃ members, raw = .obj members ∧ keywords.Filled compiler bodies depth members := by
  obtain ⟨level, node, classified, compiled⟩ := compiles
  have unstated : ∀ schema, keywords.additional = some schema → schema ≠ .null := by
    simp [own.additional]
  obtain ⟨below, properties, additional, schemaDependencies, rfl, declared, further⟩ :=
    classify_record unstated classified
  rw [Compiler.compile_object] at compiled
  obtain ⟨pieces, built, subset, chosen, record⟩ := Compiler.object_draws compiled drawn
  have names : Entries.names (compiler.compileEntries properties) =
      Entries.names keywords.declared := names_compiled declared
  rw [Compiler.compileEntries_eq_map] at names
  have known : keywords.wanted.eraseDups ++ subset ⊆ Entries.names keywords.declared := by
    intro name listed
    rcases Compiler.known_of_sets chosen name listed with stated | wanted
    · exact names ▸ stated
    · exact own.wanted wanted
  have closed : pieces.additional = none := by
    rw [own.additional] at further
    cases further
    exact (Except.ok.inj built.additional).symm
  obtain ⟨members, rfl, kept, fields⟩ := Compiler.ObjectPieces.closed_record_draws built closed rfl
    (fun name listed => (Compiler.ObjectPieces.mem_reserved built).mpr
      (Compiler.known_of_sets chosen name listed)) record
  have listedNames : ∀ name ∈ Entries.names members,
      name ∈ keywords.wanted.eraseDups ++ subset := by
    intro name listed
    obtain ⟨member, inside, rfl⟩ := List.mem_map.mp listed
    exact (fields member inside).1
  refine ⟨members, rfl, fun name listed => known (listedNames name listed),
    fun name wanted => ?_, fun key list listed there => ?_, fun name value listed schema found => ?_⟩
  · exact kept (List.mem_append_left _ (List.mem_eraseDups.mpr wanted))
  · have depends := Entries.get?_eq_some_of_mem own.distinct listed
    exact List.Subset.trans
      (Compiler.dependencies_of_sets chosen (listedNames key there) depends) kept
  · obtain ⟨-, field, stands, draws⟩ := fields _ listed
    have compiles : CompilesTo compiler schema field :=
      field_compiles declared built (Compiler.compileEntries_eq_map _ _).symm rfl further rfl
        own.consistent stands (.inl found)
    exact ⟨field, compiles, draws⟩

/-! ## Merged records -/

/-- Every hoisted draw for the schema passes it. -/
def DrawsPass (compiler : Compiler) (bodies : Generator.Bodies) (depth : Nat) (root : Json)
    (fuel : Nat) (schema : Json) : Prop :=
  ∀ generator, CompilesTo compiler schema generator → ∀ raw,
    generator.Draws compiler.options bodies depth raw →
    failures root fuel schema (hoist compiler.options.keys raw) = []

/-- A record passes its schema among merged sources if no other source has a declared name. -/
theorem merged_record_passes {root : Json} {fuel : Nat}
    (own : keywords.SelfContained compiler.options.keys)
    (filled : keywords.Filled compiler bodies depth members)
    (passes : ∀ entry ∈ keywords.declared, DrawsPass compiler bodies depth root fuel entry.2)
    {sources : List (Entries Json)} {entries : Entries Json}
    (merged : MergedFrom sources entries)
    (source : hoistedEntries compiler.options.keys members ∈ sources)
    (alone : ∀ other ∈ sources, ∀ name ∈ Entries.names other,
      name ∈ Entries.names keywords.declared →
        other = hoistedEntries compiler.options.keys members) :
    failures root fuel (.obj keywords.members) (.obj entries) = [] := by
  have kept : Entries.names members ⊆ Entries.names entries := by
    intro name listed
    exact (merged.names name).mpr ⟨_, source, by simpa using listed⟩
  have drawn : ∀ name ∈ Entries.names entries, name ∈ Entries.names keywords.declared →
      name ∈ Entries.names members := by
    intro name listed stated
    obtain ⟨other, among, inside⟩ := (merged.names name).mp listed
    rw [alone other among name inside stated] at inside
    simpa using inside
  rw [failures_eq_view, view_record_eq_nil]
  refine ⟨entries, rfl, ?_, by simp [own.additional], ?_, ?_⟩
  · intro name value listed schema found
    obtain ⟨other, among, inside⟩ := merged.exists_source listed
    have stated := Entries.mem_of_get?_eq_some found
    rw [alone other among name (Entries.mem_names_of_mem inside)
      (Entries.mem_names_of_mem stated)] at inside
    obtain ⟨⟨_, raw⟩, present, same⟩ := List.mem_map.mp inside
    cases same
    obtain ⟨field, compiles, draws⟩ := filled.drawn _ raw present schema found
    rw [← failures_eq_view]
    exact passes _ stated field compiles raw draws
  · exact List.Subset.trans filled.wanted kept
  · intro key names listed there
    have stated := own.depending (Entries.mem_names_of_mem listed)
    exact List.Subset.trans (filled.closed key names listed (drawn key there stated)) kept

/-- Property names tell the records of a list apart. -/
def Apart (records : List RecordKeywords) : Prop :=
  records.Pairwise fun one other =>
    (Entries.names one.declared).Disjoint (Entries.names other.declared)

theorem Apart.place_eq {records : List RecordKeywords} (apart : Apart records) {place index : Nat}
    {record other : RecordKeywords} (here : records[place]? = some record)
    (there : records[index]? = some other) {name : String}
    (stated : name ∈ Entries.names record.declared)
    (also : name ∈ Entries.names other.declared) : place = index := by
  obtain ⟨inside, rfl⟩ := List.getElem?_eq_some_iff.mp here
  obtain ⟨within, rfl⟩ := List.getElem?_eq_some_iff.mp there
  rcases Nat.lt_trichotomy place index with before | same | behind
  · exact absurd also (List.pairwise_iff_getElem.mp apart _ _ inside within before stated)
  · exact same
  · exact absurd stated (List.pairwise_iff_getElem.mp apart _ _ within inside behind also)

/-- A schema that asks for all record schemas of a list. -/
def allOfSchema (records : List RecordKeywords) : Json :=
  .obj [("allOf", .arr (records.map fun record => .obj record.members))]

/-- A compiled `allOf` of records draws a raw object for each of them, in their order. -/
theorem allOf_records_filled {records : List RecordKeywords}
    (own : ∀ record ∈ records, record.SelfContained compiler.options.keys)
    (compiles : CompilesTo compiler (allOfSchema records) generator) {value : Json}
    (drawn : (Generator.map generator (hoist compiler.options.keys)).Draws compiler.options bodies
      depth value) :
    ∃ raws : List Json, raws.length = records.length ∧
      value = hoist compiler.options.keys
        (.obj [(compiler.options.keys.allOf, .obj (Compiler.memberSlots raws))]) ∧
      ∀ (place : Nat) (raw : Json), raws[place]? = some raw → ∃ record : RecordKeywords,
        records[place]? = some record ∧ ∃ members, raw = .obj members ∧
          record.Filled compiler bodies depth members := by
  obtain ⟨level, node, classified, compiled⟩ := compiles
  have stated : Node.classifyWithin level (.obj (("allOf", .arr (records.map fun record =>
      .obj record.members)) :: optional .definitions .obj none)) = .ok node := classified
  obtain ⟨below, nodes, rfl, inner⟩ := classify_allOf stated
  rw [Compiler.compile_allOf] at compiled
  obtain ⟨generators, all, same⟩ := Except.bind_eq_ok.mp compiled
  cases same
  have each := Except.mapM_eq_ok all
  obtain ⟨source, ran⟩ := drawn
  obtain ⟨raws, turns, rfl⟩ := Compiler.merged_draw.mp (Prod.ext ran rfl)
  have draws := Generator.draws_of_inTurn turns
  refine ⟨raws, ?_, rfl, fun place raw found => ?_⟩
  · rw [← draws.length_eq, ← each.length_eq, ← inner.length_eq, List.length_map]
  · -- The raw object, its generator, its node and its schema stand at one place of four lists.
    obtain ⟨member, there, drew⟩ := Generator.exists_left_of_getElem? draws found
    obtain ⟨memberNode, also, memberCompiled⟩ := Generator.exists_left_of_getElem? each there
    obtain ⟨schema, listed, memberClassified⟩ := Generator.exists_left_of_getElem? inner also
    rw [List.getElem?_map, Option.map_eq_some_iff] at listed
    obtain ⟨record, stands, rfl⟩ := listed
    exact ⟨record, stands, record_filled (own record (List.mem_of_getElem? stands))
      ⟨below, memberNode, memberClassified, memberCompiled⟩ drew⟩

/-- Hoisted draws of an `allOf` of records that share no property name pass each record, if the
draws of the properties pass their schemas. -/
theorem allOf_records_pass {records : List RecordKeywords} (listed : records ≠ [])
    (distinct : compiler.options.keys.allOf ≠ compiler.options.keys.additionalProperties)
    (own : ∀ record ∈ records, record.SelfContained compiler.options.keys)
    (apart : Apart records) (compiles : CompilesTo compiler (allOfSchema records) generator)
    {root : Json} {fuel : Nat}
    (passes : ∀ record ∈ records, ∀ entry ∈ record.declared,
      DrawsPass compiler bodies depth root fuel entry.2) {value : Json}
    (drawn : (Generator.map generator (hoist compiler.options.keys)).Draws compiler.options bodies
      depth value) :
    ∀ record ∈ records, failures root fuel (.obj record.members) value = [] := by
  obtain ⟨raws, length, rfl, each⟩ := allOf_records_filled own compiles drawn
  have shape : ∀ raw ∈ raws, ∃ members, raw = .obj members ∧
      ∀ member ∈ members, compiler.options.keys.contains member.1 = false := by
    intro raw present
    obtain ⟨place, found⟩ := List.mem_iff_getElem?.mp present
    obtain ⟨record, stands, members, rfl, filled⟩ := each place raw found
    refine ⟨members, rfl, fun member inside => ?_⟩
    exact (own record (List.mem_of_getElem? stands)).free _
      (filled.known (Entries.mem_names_of_mem inside))
  have nonempty : raws ≠ [] := by
    rintro rfl
    exact listed (List.length_eq_zero_iff.mp length.symm)
  obtain ⟨entries, sources, same, perm, merged⟩ := hoist_memberSlots distinct nonempty shape
  rw [same]
  intro record present
  obtain ⟨place, stands⟩ := List.mem_iff_getElem?.mp present
  have inside := length ▸ (List.getElem?_eq_some_iff.mp stands).1
  have here := List.getElem?_eq_getElem inside
  obtain ⟨_, also, members, shaped, filled⟩ := each place _ here
  cases stands.symm.trans also
  rw [shaped] at here
  refine merged_record_passes (own record present) filled (passes record present) merged ?_ ?_
  · exact perm.mem_iff.mpr (List.mem_map_of_mem (List.mem_of_getElem? here))
  · intro other among name named stated
    obtain ⟨raw, there, rfl⟩ := List.mem_map.mp (perm.mem_iff.mp among)
    obtain ⟨index, found⟩ := List.mem_iff_getElem?.mp there
    obtain ⟨owner, ownerStands, others, rfl, otherFilled⟩ := each index raw found
    have declared : name ∈ Entries.names owner.declared :=
      otherFilled.known (by simpa [membersOf] using named)
    -- Only one record declares the name, so both raw objects are the one at its place.
    obtain rfl := apart.place_eq stands ownerStands stated declared
    cases here.symm.trans found
    rfl

end Schema

namespace Sampler

/-- Every hoisted draw of an `allOf` of records that share no property name passes each of them. -/
theorem disjoint_records_pass {records : List Schema.RecordKeywords} {options : Options}
    {registry : Registry} {document : Document} {sampler : Sampler} (listed : records ≠ [])
    (distinct : options.keys.allOf ≠ options.keys.additionalProperties)
    (own : ∀ record ∈ records, record.SelfContained options.keys) (apart : Schema.Apart records)
    (parsed : Document.parse (Schema.allOfSchema records) = .ok document)
    (compiled : compileHoisted (Schema.allOfSchema records) options registry = .ok sampler)
    {root : Json} {fuel : Nat}
    (passes : ∀ record ∈ records, ∀ entry ∈ record.declared, Schema.DrawsPass
      (document.compiler options registry) sampler.slots.bodies 0 root fuel entry.2)
    {source : Source} {value : Json} (drawn : (sampler.draw source).1 = .ok value) :
    ∀ record ∈ records, Schema.failures root fuel (.obj record.members) value = [] := by
  obtain ⟨raw, rawCompiled, rfl⟩ := compileHoisted_eq_ok.mp compiled
  obtain ⟨_, also, slots, entry, rfl⟩ := compile_eq_ok.mp rawCompiled
  cases parsed.symm.trans also
  have compiles : Schema.CompilesTo (document.compiler raw.options registry)
      (Schema.allOfSchema records) raw.entry :=
    ⟨_, document.root, (Document.parse_eq_ok parsed).1, Document.slots_root slots entry⟩
  exact Schema.allOf_records_pass listed distinct own apart compiles passes ⟨source, drawn⟩

/-- The schema of `null`, the same anywhere. -/
def nullProperty : Json := .obj [("type", .str "null")]

theorem nullProperty_drawsPass {compiler : Compiler} {bodies : Generator.Bodies} {depth : Nat}
    {root : Json} {fuel : Nat} : Schema.DrawsPass compiler bodies depth root fuel nullProperty := by
  rintro generator ⟨level, node, classified, compiled⟩ raw drawn
  have stated : Node.classifyWithin level (.obj (Schema.optional .definitions .obj none ++
      [("type", .str TypeName.null.name)])) = .ok node := classified
  obtain rfl : node = Schema.scalarNode .null := Schema.classify_scalar nofun nofun stated
  cases compiled
  rw [drawn.of_constant, Schema.failures_eq_view]
  show (Schema.view _ (.obj (Schema.optional .definitions .obj none ++
    [("type", .str TypeName.null.name)]))).schema .null = []
  rw [Schema.view_scalar_eq_nil]
  rfl

/-- Two records, of which the first has a name that depends on another one. -/
def twoRecords : List Schema.RecordKeywords :=
  [⟨none, none, some [("b", ["a"])], some [("a", nullProperty), ("b", nullProperty)], none⟩,
    ⟨none, none, none, some [("c", nullProperty)], some ["c"]⟩]

def twoDocument : Document :=
  ⟨.allOf [.object ⟨[("a", .null), ("b", .null)], [], .absent, [], [("b", ["a"])], []⟩,
    .object ⟨[("c", .null)], ["c"], .absent, [], [], []⟩], [], .obj []⟩

def twoBody : Generator :=
  let null := Generator.constant .null
  .record [(({} : SyntheticKeys).allOf, .record
    [("0000", .choice "structural.object"
      [.record [], .record [("a", null)], .record [("a", null), ("b", null)]] (some 0)),
    ("0001", .record [("c", null)])])]

def twoSampler : Sampler := ⟨.map twoBody (hoist {}), ⟨["#"], [twoBody]⟩, {}⟩

theorem two_records_pass :
    twoRecords ≠ [] ∧
      ({} : SyntheticKeys).allOf ≠ ({} : SyntheticKeys).additionalProperties ∧
      (∀ record ∈ twoRecords, record.SelfContained {}) ∧ Schema.Apart twoRecords ∧
      Document.parse (Schema.allOfSchema twoRecords) = .ok twoDocument ∧
      compileHoisted (Schema.allOfSchema twoRecords) {} [] = .ok twoSampler ∧
      (∀ fuel, ∀ record ∈ twoRecords, ∀ entry ∈ record.declared, Schema.DrawsPass
        (twoDocument.compiler {} []) twoSampler.slots.bodies 0
          (Schema.allOfSchema twoRecords) fuel entry.2) ∧
      (twoSampler.draw (.cycle #[0xC0000000])).1 =
        .ok (.obj [("a", .null), ("b", .null), ("c", .null)]) ∧
      ∀ fuel, ∀ record ∈ twoRecords,
        Schema.failures (Schema.allOfSchema twoRecords) fuel (.obj record.members)
          (.obj [("a", .null), ("b", .null), ("c", .null)]) = [] := by
  have listed : twoRecords ≠ [] := List.cons_ne_nil _ _
  have distinct : ({} : SyntheticKeys).allOf ≠ ({} : SyntheticKeys).additionalProperties := by
    decide
  have own : ∀ record ∈ twoRecords, record.SelfContained {} := by
    intro record present
    rcases List.mem_pair.mp present with rfl | rfl
    · exact ⟨rfl, rfl, by decide, by decide, by decide, by decide⟩
    · exact ⟨rfl, rfl, by decide, by decide, by decide, by decide⟩
  have apart : Schema.Apart twoRecords := by
    refine List.pairwise_pair.mpr fun name one other => ?_
    rcases List.mem_pair.mp one with rfl | rfl <;> exact absurd other (by decide)
  have parsed : Document.parse (Schema.allOfSchema twoRecords) = .ok twoDocument := by cbv
  have compiled : compileHoisted (Schema.allOfSchema twoRecords) {} [] = .ok twoSampler := by
    cbv
  have passes : ∀ fuel, ∀ record ∈ twoRecords, ∀ entry ∈ record.declared, Schema.DrawsPass
      (twoDocument.compiler {} []) twoSampler.slots.bodies 0 (Schema.allOfSchema twoRecords) fuel
        entry.2 := by
    intro fuel record present entry stated
    have same : entry.2 = nullProperty := by
      rcases List.mem_pair.mp present with rfl | rfl
      · rcases List.mem_pair.mp stated with rfl | rfl <;> rfl
      · rw [List.mem_singleton.mp stated]
    rw [same]
    exact nullProperty_drawsPass
  have drawn : (twoSampler.draw (.cycle #[0xC0000000])).1 =
      .ok (.obj [("a", .null), ("b", .null), ("c", .null)]) := by cbv
  exact ⟨listed, distinct, own, apart, parsed, compiled, passes, drawn, fun fuel =>
    disjoint_records_pass listed distinct own apart parsed compiled (passes fuel) drawn⟩

/-- One record with a required name. -/
def soleRecord : Schema.RecordKeywords :=
  ⟨none, none, none, some [("a", nullProperty)], some ["a"]⟩

/-- Containers of members and of additional entries have one key. -/
def sharedOptions : Options := ⟨{ additionalProperties := "x", allOf := "x" }, {}, 0⟩

def soleDocument : Document :=
  ⟨.allOf [.object ⟨[("a", .null)], ["a"], .absent, [], [], []⟩], [], .obj []⟩

def soleBody : Generator := .record [("x", .record [("0000", .record [("a", .constant .null)])])]

def soleSampler : Sampler :=
  ⟨.map soleBody (hoist sharedOptions.keys), ⟨["#"], [soleBody]⟩, sharedOptions⟩

/-- The container of the members is spliced as one of additional entries, so that the members stand
under their places and the required name is missing. -/
theorem shared_key_fails :
    soleRecord.SelfContained sharedOptions.keys ∧
      Document.parse (Schema.allOfSchema [soleRecord]) = .ok soleDocument ∧
      compileHoisted (Schema.allOfSchema [soleRecord]) sharedOptions [] = .ok soleSampler ∧
      (∀ root fuel, ∀ entry ∈ soleRecord.declared, Schema.DrawsPass
        (soleDocument.compiler sharedOptions []) soleSampler.slots.bodies 0 root fuel entry.2) ∧
      (soleSampler.draw (.cycle #[0])).1 = .ok (.obj [("0000", .obj [("a", .null)])]) ∧
      ∀ root fuel, Schema.failures root fuel (.obj soleRecord.members)
        (.obj [("0000", .obj [("a", .null)])]) ≠ [] := by
  refine ⟨⟨rfl, rfl, by decide, by decide, by decide, by decide⟩, by cbv, by cbv, ?_, by cbv, ?_⟩
  · intro root fuel entry stated
    rw [List.mem_singleton.mp stated]
    exact nullProperty_drawsPass
  · intro root fuel passed
    rw [Schema.failures_eq_view, Schema.view_record_eq_nil] at passed
    obtain ⟨members, same, -, -, wanted, -⟩ := passed
    cases same
    exact absurd wanted (by decide)

end Sampler

end SchemaSampler
