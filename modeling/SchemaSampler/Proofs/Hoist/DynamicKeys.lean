import SchemaSampler.Proofs.Draw.Consecutive
import SchemaSampler.Proofs.Hoist.Objects
import SchemaSampler.Proofs.Hoist.Precedence

/-!
# Dynamic keys of raw objects

A raw object has its dynamic keys in containers. Dictionaries drop keys that are declared, required,
synthetic or matched by a pattern that does not govern them. If the keys of every group also match
its own pattern, no key occurs twice, so hoisting takes all members together and replaces none.

Results:
1. `Generator.Draws.sorted_dictionary`: drawn dictionaries are sorted.
2. `nodup_names_sources`, `hoist_perm`: no key occurs twice where keys keep apart.
3. `Compiler.object_keeps_apart`: the keys of a raw object and of its containers.
4. `Compiler.dynamic_keys_apart`: what a raw draw holds, and what hoisting makes of it.
-/

namespace SchemaSampler

open Entries (MergedFrom)
open HoistedParts (membersOf)

/-! ## Drawn dictionaries -/

theorem sorted_of_drawEntries {admits : String → Bool} {key value : Draw Json} {count : Nat}
    {before : Entries Json} {cursor last : Cursor} {result : Json} (sorted : before.Sorted)
    (ran : drawEntries admits key value count before cursor = (.ok result, last)) :
    ∃ members : Entries Json, result = .obj members ∧ members.Sorted := by
  induction count generalizing before cursor with
  | zero =>
    cases ran
    exact ⟨before, rfl, sorted⟩
  | succ count ih =>
    rw [drawEntries] at ran
    obtain ⟨name, between, -, ran⟩ := Draw.bind_eq_ok ran
    split at ran
    next name =>
      split at ran
      · obtain ⟨member, further, -, ran⟩ := Draw.bind_eq_ok ran
        exact ih (sorted.insert name member) ran
      · exact ih sorted ran
    next => exact ih sorted ran

theorem Generator.Draws.sorted_dictionary {options : Options} {bodies : Generator.Bodies}
    {depth : Nat} {keys values : Generator} {maxEntries : Nat} {reserved : List String}
    {excluded : List Pattern} {members : Entries Json}
    (drawn : (Generator.dictionary keys values maxEntries reserved excluded).Draws options bodies
      depth (.obj members)) : members.Sorted := by
  obtain ⟨source, ran⟩ := drawn
  rw [Generator.draw_eq, Generator.drawWith] at ran
  obtain ⟨count, between, -, ran⟩ := Draw.bind_eq_ok (Prod.ext ran rfl)
  obtain ⟨_, same, sorted⟩ := sorted_of_drawEntries .nil ran
  cases same
  exact sorted

/-! ## Raw objects -/

namespace ObjectSpec

/-- The name is neither declared, required nor synthetic, and no foreign pattern matches it. -/
structure Dynamic (keys : SyntheticKeys) (spec : ObjectSpec Node) (foreign : String → Prop)
    (name : String) : Prop where
  undeclared : name ∉ Entries.names spec.properties
  unrequired : name ∉ spec.required
  ordinary : keys.contains name = false
  unmatched : ∀ text ∈ Entries.names spec.patterns, foreign text →
    ∀ pattern, Pattern.read? text = some pattern → pattern.isMatch name = false

/-- Members outside the containers are declared or required. To additional entries all patterns are
foreign, to the entries of a group all but its own, which is a declared one. -/
structure KeepsApart (keys : SyntheticKeys) (spec : ObjectSpec Node) (members : Entries Json) :
    Prop where
  fields : ∀ name ∈ Entries.names members, keys.contains name = false →
    name ∈ Entries.names spec.properties ∨ name ∈ spec.required
  additional : ∀ name ∈ Entries.names (containerEntries members keys.additionalProperties),
    spec.Dynamic keys (fun _ => True) name
  groups : ∀ group ∈ containerEntries members keys.patternProperties,
    group.1 ∈ Entries.names spec.patterns ∧
      ∀ name ∈ Entries.names (membersOf group.2), spec.Dynamic keys (· ≠ group.1) name

end ObjectSpec

/-- The keys of every group match the pattern that the group stands for. -/
def GroupsMatch (keys : SyntheticKeys) (members : Entries Json) : Prop :=
  ∀ group ∈ containerEntries members keys.patternProperties,
    ∀ name ∈ Entries.names (membersOf group.2),
      ∃ pattern, Pattern.read? group.1 = some pattern ∧ pattern.isMatch name = true

/-- Members in order, of which the synthetic ones are sorted containers. -/
structure SortedContainers (keys : SyntheticKeys) (members : Entries Json) : Prop where
  sorted : members.Sorted
  synthetic : ∀ member ∈ members, keys.contains member.1 = false ∨ IsContainerKey keys member.1
  additional : (containerEntries members keys.additionalProperties).Sorted
  patterns : (containerEntries members keys.patternProperties).Sorted
  group : ∀ group ∈ containerEntries members keys.patternProperties,
    (membersOf group.2).Sorted

/-! ## Hoisting -/

section Hoisting

variable {keys : SyntheticKeys} {spec : ObjectSpec Node} {members : Entries Json}

namespace ObjectSpec

theorem Dynamic.unknown {foreign : String → Prop} {name : String}
    (dynamic : spec.Dynamic keys foreign name) :
    ¬ (name ∈ Entries.names spec.properties ∨ name ∈ spec.required) := by
  rintro (declared | wanted)
  · exact dynamic.undeclared declared
  · exact dynamic.unrequired wanted

/-- A key to which the pattern of a group is foreign is no key of the group. -/
theorem KeepsApart.not_mem_group (apart : spec.KeepsApart keys members)
    (matching : GroupsMatch keys members) {group : String × Json}
    (listed : group ∈ containerEntries members keys.patternProperties) {foreign : String → Prop}
    (other : foreign group.1) {name : String} (dynamic : spec.Dynamic keys foreign name) :
    name ∉ Entries.names (membersOf group.2) := by
  intro inside
  obtain ⟨pattern, read, found⟩ := matching group listed name inside
  rw [dynamic.unmatched group.1 (apart.groups group listed).1 other pattern read] at found
  cases found

end ObjectSpec

theorem nodup_names_sources (shape : SortedContainers keys members)
    (apart : spec.KeepsApart keys members) (matching : GroupsMatch keys members) :
    (Entries.names (splicedSources keys members).flatten).Nodup := by
  have known : ∀ name ∈ Entries.names (members.filter fun member => !keys.contains member.1),
      name ∈ Entries.names spec.properties ∨ name ∈ spec.required := by
    intro name listed
    obtain ⟨member, kept, rfl⟩ := List.mem_map.mp listed
    obtain ⟨there, ordinary⟩ := List.mem_filter.mp kept
    exact apart.fields _ (Entries.mem_names_of_mem there) (by simpa using ordinary)
  have ordered : Entries.Sorted (members.filter fun member => !keys.contains member.1) :=
    shape.sorted.sublist List.filter_sublist
  refine Entries.nodup_names_flatten ?_ ?_
  · simp only [splicedSources, List.forall_mem_cons, List.forall_mem_map, names_hoistedEntries]
    exact ⟨ordered.nodup_names, shape.additional.nodup_names,
      fun group listed => (shape.group group listed).nodup_names⟩
  · -- Fields are known names, which no dictionary draws; a key in a group matches its pattern, which
    -- is foreign to additional entries and to the other groups.
    simp only [splicedSources, List.pairwise_cons, List.pairwise_map, List.forall_mem_cons,
      List.forall_mem_map, names_hoistedEntries]
    refine ⟨⟨fun name own additional => ?_, fun group listed name own inside => ?_⟩,
      fun group listed name additional => ?_, ?_⟩
    · exact (apart.additional name additional).unknown (known name own)
    · exact ((apart.groups group listed).2 name inside).unknown (known name own)
    · exact apart.not_mem_group matching listed trivial (apart.additional name additional)
    · refine shape.patterns.imp_of_mem fun {group later} listed also order name inside => ?_
      have different : later.1 ≠ group.1 := (ne_of_lt order).symm
      exact apart.not_mem_group matching also different ((apart.groups group listed).2 name inside)

/-- Containers whose keys keep apart are hoisted without a loss. -/
theorem hoist_perm (distinct : keys.Distinct) (shape : SortedContainers keys members)
    (apart : spec.KeepsApart keys members) (matching : GroupsMatch keys members) :
    ∃ entries, hoist keys (.obj members) = .obj entries ∧ Entries.Sorted entries ∧
      entries.Perm (splicedSources keys members).flatten := by
  have merged := mergedFrom_spliced distinct shape.sorted
  exact ⟨_, hoist_of_containers shape.synthetic, merged.sorted,
    merged.perm_flatten (nodup_names_sources shape apart matching)⟩

end Hoisting

namespace Compiler

variable {compiler : Compiler} {spec : ObjectSpec Node} {bodies : Generator.Bodies} {depth : Nat}
  {pieces : ObjectPieces compiler (compiler.parts spec)}

/-- An admitted key is dynamic if the foreign patterns are excluded. -/
theorem dynamic_of_admitsKey (built : pieces.Compiled) {foreign : String → Prop}
    {excluded : List Pattern}
    (covers : ∀ matcher ∈ pieces.matchers, foreign matcher.1 → matcher.2 ∈ excluded) {name : String}
    (admits : admitsKey compiler.options pieces.reserved excluded name = true) :
    spec.Dynamic compiler.options.keys foreign name := by
  obtain ⟨free, ordinary, clear⟩ := admitsKey_iff.mp admits
  have unreserved : ¬ (name ∈ Entries.names spec.properties ∨ name ∈ spec.required) := by
    intro known
    rw [← names_properties compiler] at known
    exact free ((ObjectPieces.mem_reserved built).mpr known)
  refine ⟨fun declared => unreserved (.inl declared), fun wanted => unreserved (.inr wanted),
    ordinary, fun text listed other pattern read => ?_⟩
  rw [← names_patterns compiler] at listed
  obtain ⟨own, readOwn, matcher⟩ := ObjectParts.mem_matchers built.matchers listed
  cases readOwn.symm.trans read
  exact clear _ (covers _ matcher other)

section Containers

variable {names : List String} {members : Entries Json}
  (each : ∀ member ∈ members,
    (member.1 ∈ names ∧ ∃ field, Entries.get? pieces.fields member.1 = some field ∧
      field.Draws compiler.options bodies depth member.2) ∨
    ∃ container ∈ pieces.containers, container.1 = member.1 ∧
      container.2.Draws compiler.options bodies depth member.2)
  (plain : ∀ name ∈ names, compiler.options.keys.contains name = false)
  (distinct : compiler.options.keys.Distinct) (built : pieces.Compiled)

include each plain distinct built

theorem additional_container :
    (containerEntries members compiler.options.keys.additionalProperties).Sorted ∧
      ∀ name ∈ Entries.names (containerEntries members compiler.options.keys.additionalProperties),
        spec.Dynamic compiler.options.keys (fun _ => True) name := by
  unfold containerEntries
  cases found : members.get? compiler.options.keys.additionalProperties with
  | none => exact ⟨.nil, by simp [membersOf, Entries.names]⟩
  | some value =>
    obtain ⟨_, stands, named, draws⟩ :=
      ObjectPieces.exists_container each plain (Entries.mem_of_get?_eq_some found) (by simp)
    rcases ObjectPieces.mem_containers stands with ⟨values, -, rfl⟩ | ⟨rfl, -⟩
    · obtain ⟨entries, rfl, all⟩ := draws.of_dictionary
      refine ⟨draws.sorted_dictionary, fun name listed => ?_⟩
      obtain ⟨entry, inside, rfl⟩ := List.mem_map.mp listed
      exact dynamic_of_admitsKey built (fun matcher read _ => List.mem_map_of_mem read)
        (all entry inside).1
    · exact absurd named.symm distinct.1

theorem pattern_container :
    (containerEntries members compiler.options.keys.patternProperties).Sorted ∧
      ∀ group ∈ containerEntries members compiler.options.keys.patternProperties,
        (membersOf group.2).Sorted ∧ group.1 ∈ Entries.names spec.patterns ∧
          ∀ name ∈ Entries.names (membersOf group.2),
            spec.Dynamic compiler.options.keys (· ≠ group.1) name := by
  unfold containerEntries
  cases found : members.get? compiler.options.keys.patternProperties with
  | none => exact ⟨.nil, by simp [membersOf]⟩
  | some value =>
    obtain ⟨_, stands, named, draws⟩ :=
      ObjectPieces.exists_container each plain (Entries.mem_of_get?_eq_some found) (by simp)
    rcases ObjectPieces.mem_containers stands with ⟨values, -, rfl⟩ | ⟨rfl, -⟩
    · exact absurd named distinct.1
    · obtain ⟨groups, rfl, fieldwise⟩ := draws.of_record
      refine ⟨Entries.sorted_ofList groups, fun group listed => ?_⟩
      obtain ⟨field, own, same, dictionary⟩ :=
        Generator.exists_left_of_mem fieldwise (Entries.mem_of_mem_ofList listed)
      obtain ⟨synthesizer, values, source, -, form⟩ := ObjectParts.mem_groups built.groups own
      rw [form] at dictionary
      obtain ⟨entries, shape, all⟩ := dictionary.of_dictionary
      rw [shape] at dictionary ⊢
      refine ⟨dictionary.sorted_dictionary, ?_, fun name inside => ?_⟩
      · rw [← names_patterns compiler, ← same]
        exact Entries.mem_names_of_mem source
      · obtain ⟨entry, there, rfl⟩ := List.mem_map.mp inside
        refine dynamic_of_admitsKey built (fun matcher read other => ?_) (all entry there).1
        exact List.mem_map_of_mem (List.mem_filter.mpr ⟨read, by simpa [same] using other⟩)

end Containers

variable {raw : Json} {generator : Generator}

/-- The raw draws of an object: sorted containers, whose keys keep apart. -/
theorem object_keeps_apart (compiled : compiler.compile (.object spec) = .ok generator)
    (distinct : compiler.options.keys.Distinct)
    (properties : ∀ name ∈ Entries.names spec.properties,
      compiler.options.keys.contains name = false)
    (required : ∀ name ∈ spec.required, compiler.options.keys.contains name = false)
    (drawn : generator.Draws compiler.options bodies depth raw) :
    ∃ members, raw = .obj members ∧ SortedContainers compiler.options.keys members ∧
      spec.KeepsApart compiler.options.keys members := by
  rw [compile_object] at compiled
  obtain ⟨pieces, built, subset, chosen, record⟩ := object_draws compiled drawn
  obtain ⟨fields, rfl, fieldwise⟩ := record.of_record
  obtain ⟨each, -⟩ := ObjectPieces.members_of_fieldwise fieldwise
  have known : ∀ name ∈ spec.required.eraseDups ++ subset,
      name ∈ Entries.names spec.properties ∨ name ∈ spec.required :=
    names_properties compiler spec ▸ known_of_sets chosen
  have plain : ∀ name ∈ spec.required.eraseDups ++ subset,
      compiler.options.keys.contains name = false :=
    fun name listed => (known name listed).elim (properties name) (required name)
  obtain ⟨sortedAdditional, additional⟩ := additional_container each plain distinct built
  obtain ⟨sortedPatterns, patterns⟩ := pattern_container each plain distinct built
  refine ⟨Entries.ofList fields, rfl,
    ⟨Entries.sorted_ofList _, ObjectPieces.ordinary_or_container each plain, sortedAdditional,
      sortedPatterns, fun group listed => (patterns group listed).1⟩,
    ⟨fun name listed ordinary => ?_, additional, fun group listed => (patterns group listed).2⟩⟩
  obtain ⟨member, inside, rfl⟩ := List.mem_map.mp listed
  rcases each member inside with ⟨own, -⟩ | ⟨_, stands, named, -⟩
  · exact known _ own
  · rcases ObjectPieces.container_key stands with same | same <;>
      simp [← named, same] at ordinary

/-- The members of a raw draw outside the containers are declared or required, and the keys in the
containers are not, nor are they synthetic or matched by a pattern that does not govern them. If the
keys of every group match its pattern, the hoisted object consists of these entries. -/
theorem dynamic_keys_apart (compiled : compiler.compile (.object spec) = .ok generator)
    (distinct : compiler.options.keys.Distinct)
    (properties : ∀ name ∈ Entries.names spec.properties,
      compiler.options.keys.contains name = false)
    (required : ∀ name ∈ spec.required, compiler.options.keys.contains name = false)
    {cursor : Cursor}
    (drawn : (Generator.draw compiler.options bodies generator cursor).1 = .ok raw) :
    ∃ members, raw = .obj members ∧ spec.KeepsApart compiler.options.keys members ∧
      (GroupsMatch compiler.options.keys members →
        ∃ entries, hoist compiler.options.keys raw = .obj entries ∧ Entries.Sorted entries ∧
          entries.Perm (splicedSources compiler.options.keys members).flatten) := by
  obtain ⟨members, rfl, shape, apart⟩ :=
    object_keeps_apart compiled distinct properties required ⟨cursor.source, drawn⟩
  exact ⟨members, rfl, apart, hoist_perm distinct shape apart⟩

/-- A null under its name, booleans under keys that match a pattern, nulls under further keys. -/
def openSpec : ObjectSpec Node :=
  ⟨[("a", .null)], ["a"], .schema .null, [("^x$", .boolean)], [], []⟩

def openBody : Generator :=
  .record [("a", .constant .null),
    (({} : SyntheticKeys).additionalProperties,
      .dictionary (.text 16) (.constant .null) 4 ["a"] (Pattern.read? "^x$").toList),
    (({} : SyntheticKeys).patternProperties, .record
      [("^x$", .dictionary (.pattern ⟨"^x$", .literal {} ['x']⟩) .boolean 4 ["a"] [])])]

/-- A key in each of the containers. -/
def openMembers : Entries Json :=
  [(({} : SyntheticKeys).additionalProperties, .obj [("f", .null)]),
    (({} : SyntheticKeys).patternProperties, .obj [("^x$", .obj [("x", .bool false)])]),
    ("a", .null)]

theorem compile_openSpec : Compiler.compile ⟨{}, {}, .obj [], []⟩ (.object openSpec) =
    .ok openBody := by
  have sets : propertySets [] (["a"] : List String).eraseDups
      ((Entries.names (compileEntries ⟨{}, {}, .obj [], []⟩ [("a", .null)])).filter
        fun key => !(["a"] : List String).eraseDups.contains key) = [[]] := propertySets_nil rfl
  show Compiler.object _ _ = _
  dsimp only [Compiler.object]
  rw [sets]
  rfl

theorem draw_openBody : (Generator.draw {} [] openBody
    ⟨.cycle #[0x50000000, 0x10000000, 0x10000000, 0x90000000], 0⟩).1 = .ok (.obj openMembers) := by
  rfl

theorem open_keys_apart :
    Compiler.compile ⟨{}, {}, .obj [], []⟩ (.object openSpec) = .ok openBody ∧
      ({} : SyntheticKeys).Distinct ∧
      (∀ name ∈ Entries.names openSpec.properties,
        ({} : SyntheticKeys).contains name = false) ∧
      (∀ name ∈ openSpec.required, ({} : SyntheticKeys).contains name = false) ∧
      (Generator.draw {} [] openBody
        ⟨.cycle #[0x50000000, 0x10000000, 0x10000000, 0x90000000], 0⟩).1 =
          .ok (.obj openMembers) ∧
      openSpec.KeepsApart {} openMembers ∧ GroupsMatch {} openMembers ∧
      hoist {} (.obj openMembers) =
        .obj [("a", .null), ("f", .null), ("x", .bool false)] ∧
      [("a", .null), ("f", .null), ("x", .bool false)].Perm
        (splicedSources {} openMembers).flatten := by
  have distinct : ({} : SyntheticKeys).Distinct := ⟨by decide, by decide, by decide⟩
  obtain ⟨members, same, apart, hoisted⟩ :=
    dynamic_keys_apart compile_openSpec distinct (by decide) (by decide) draw_openBody
  cases same
  have matching : GroupsMatch {} openMembers := by
    intro group listed name inside
    cases List.mem_singleton.mp listed
    cases List.mem_singleton.mp inside
    exact ⟨_, rfl, rfl⟩
  obtain ⟨entries, value, -, perm⟩ := hoisted matching
  have result : hoist {} (.obj openMembers) =
      .obj [("a", .null), ("f", .null), ("x", .bool false)] := rfl
  cases Json.obj.inj (value.symm.trans result)
  exact ⟨compile_openSpec, distinct, by decide, by decide, draw_openBody, apart, matching, result,
    perm⟩

end Compiler

end SchemaSampler
