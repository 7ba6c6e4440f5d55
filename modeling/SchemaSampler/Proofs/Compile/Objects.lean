import SchemaSampler.Proofs.Compile.Results
import SchemaSampler.Proofs.Draw.Generators
import SchemaSampler.Proofs.Subsets

/-!
# Compiled objects

An object compiles to one record for every admissible set of optional properties. `ObjectPieces`
collects what all of these records share; whatever the compiled object draws is drawn from the
record of one set.

Results:
1. `mem_propertySets`: the sets are those that the dependencies allow.
2. `Compiler.object_yields`: an object draws from the record of one of them.
3. `ObjectPieces.record_members`, `ObjectPieces.mem_containers`: the members of such a draw.
-/

namespace SchemaSampler

namespace Compiler

/-! ## Sets of properties -/

theorem dependenciesHold_iff {dependencies : Entries (List String)} {keys : List String} :
    dependenciesHold dependencies keys = true ↔
      ∀ key ∈ keys, ∀ names, dependencies.get? key = some names → names ⊆ keys := by
  unfold dependenciesHold
  rw [List.all_eq_true]
  refine forall₂_congr fun key _ => ?_
  cases dependencies.get? key with
  | none => simp
  | some names => simp [List.subset_def]

theorem mem_propertySets {dependencies : Entries (List String)}
    {required optional subset : List String} :
    subset ∈ propertySets dependencies required optional ↔
      subset ∈ subsets optional ∧ dependenciesHold dependencies (required ++ subset) = true := by
  unfold propertySets
  rw [List.mem_mergeSort, List.mem_filter]

/-- Without optional properties there is at most the set of the required ones. -/
theorem propertySets_nil {dependencies : Entries (List String)} {required : List String}
    (holds : dependenciesHold dependencies required = true) :
    propertySets dependencies required [] = [[]] := by
  have empty : subsets ([] : List String) = [[]] := rfl
  unfold propertySets
  rw [empty, List.filter_singleton, List.append_nil, holds]
  exact List.mergeSort_singleton []

/-! ## Parts -/

theorem allCompiled_eq_ok {entries : List (String × Compiled)}
    {generators : List (String × Generator)} (compiled : allCompiled entries = .ok generators) :
    entries = generators.map fun entry => (entry.1, .ok entry.2) := by
  induction entries generalizing generators with
  | nil =>
    cases compiled
    rfl
  | cons entry rest ih =>
    obtain ⟨key, result⟩ := entry
    obtain ⟨generator, own, compiled⟩ := Except.bind_eq_ok.mp compiled
    obtain ⟨others, later, same⟩ := Except.bind_eq_ok.mp compiled
    cases same
    rw [ih later, List.map_cons, show result = .ok generator from own]

theorem optionally_eq_ok {additional : Option Compiled} {generator : Option Generator}
    (compiled : optionally additional = .ok generator) : additional = generator.map .ok := by
  unfold optionally at compiled
  split at compiled
  next =>
    cases compiled
    rfl
  next =>
    cases compiled
    rfl
  next => cases compiled

namespace ObjectParts

/-- A pattern's group is a dictionary of its values, under keys that are synthesized from the
pattern and match no other one. -/
theorem mem_groups {options : Options} {reserved : List String}
    {matchers : List (String × Pattern)} {patterns : List (String × Compiled)}
    {dictionaries : List (String × Generator)}
    (compiled : groups options reserved matchers patterns = .ok dictionaries)
    {group : String × Generator} (present : group ∈ dictionaries) :
    ∃ synthesizer values, (group.1, .ok values) ∈ patterns ∧
      Synthesizer.ofPattern? group.1 options.limits.maxRepeat = some synthesizer ∧
      group.2 = .dictionary (.pattern synthesizer) values options.limits.maxEntries reserved
        ((matchers.filter fun matcher => matcher.1 != group.1).map Prod.snd) := by
  induction patterns generalizing dictionaries with
  | nil =>
    cases compiled
    cases present
  | cons pattern rest ih =>
    obtain ⟨text, result⟩ := pattern
    obtain ⟨keys, synthesized, compiled⟩ := Except.bind_eq_ok.mp compiled
    obtain ⟨values, own, compiled⟩ := Except.bind_eq_ok.mp compiled
    obtain ⟨others, later, same⟩ := Except.bind_eq_ok.mp compiled
    cases same
    cases List.mem_cons.mp present with
    | inl here =>
      cases here
      cases own
      obtain ⟨synthesizer, found, rfl⟩ :=
        Generator.patternOf_eq_ok.mp (Except.asInvalid_eq_ok.mp synthesized)
      exact ⟨synthesizer, values, List.mem_cons_self, found, rfl⟩
    | inr there =>
      obtain ⟨synthesizer, values, listed, found, same⟩ := ih later there
      exact ⟨synthesizer, values, List.mem_cons_of_mem _ listed, found, same⟩

/-- Every pattern has a matcher. -/
theorem mem_matchers {patterns : List (String × Compiled)} {texts : List (String × Pattern)}
    (read : matchers patterns = .ok texts) {text : String} :
    text ∈ Entries.names patterns →
      ∃ pattern, Pattern.read? text = some pattern ∧ (text, pattern) ∈ texts := by
  induction patterns generalizing texts with
  | nil => exact fun absent => nomatch absent
  | cons first rest ih =>
    obtain ⟨own, compiled⟩ := first
    rw [matchers] at read
    split at read
    next pattern found =>
      obtain ⟨others, later, same⟩ := Except.bind_eq_ok.mp read
      cases same
      intro present
      rcases List.mem_cons.mp present with rfl | behind
      · exact ⟨pattern, found, List.mem_cons_self⟩
      · obtain ⟨pattern, found, listed⟩ := ih later behind
        exact ⟨pattern, found, List.mem_cons_of_mem _ listed⟩
    next => cases read

theorem exists_ok_of_groups {options : Options} {reserved : List String}
    {matchers : List (String × Pattern)} {patterns : List (String × Compiled)}
    {dictionaries : List (String × Generator)}
    (compiled : groups options reserved matchers patterns = .ok dictionaries)
    {pattern : String × Compiled} (present : pattern ∈ patterns) :
    (∃ synthesizer, Synthesizer.ofPattern? pattern.1 options.limits.maxRepeat = some synthesizer) ∧
      ∃ values, pattern.2 = .ok values := by
  induction patterns generalizing dictionaries with
  | nil => cases present
  | cons first rest ih =>
    obtain ⟨keys, keysOk, compiled⟩ := Except.bind_eq_ok.mp compiled
    obtain ⟨values, own, compiled⟩ := Except.bind_eq_ok.mp compiled
    obtain ⟨others, later, -⟩ := Except.bind_eq_ok.mp compiled
    rcases List.mem_cons.mp present with rfl | there
    · obtain ⟨synthesizer, found, -⟩ :=
        Generator.patternOf_eq_ok.mp (Except.asInvalid_eq_ok.mp keysOk)
      exact ⟨⟨synthesizer, found⟩, values, own⟩
    · exact ih later there

end ObjectParts

/-! ## The records of an object -/

/-- What the records of a compiled object share. -/
structure ObjectPieces (compiler : Compiler) (parts : ObjectParts) where
  additional : Option Generator
  declared : List (String × Generator)
  matchers : List (String × Pattern)
  groups : List (String × Generator)

namespace ObjectPieces

variable {compiler : Compiler} {parts : ObjectParts}

/-- The generators of the keys that a record may have outside its containers. -/
def fields (pieces : ObjectPieces compiler parts) : List (String × Generator) :=
  pieces.declared ++ (parts.undeclared parts.required.eraseDups).map fun key =>
    (key, pieces.additional.getD compiler.arbitrary)

def reserved (pieces : ObjectPieces compiler parts) : List String := Entries.names pieces.fields

/-- The containers of dynamic keys. -/
def containers (pieces : ObjectPieces compiler parts) : List (String × Generator) :=
  (match pieces.additional with
    | some values => [(compiler.options.keys.additionalProperties,
        ObjectParts.additionalEntries compiler.options pieces.reserved pieces.matchers values)]
    | none => []) ++
  (if pieces.groups.isEmpty then []
    else [(compiler.options.keys.patternProperties, .record pieces.groups)])

def record (pieces : ObjectPieces compiler parts) (keys : List String) : Generator :=
  ObjectParts.record pieces.fields pieces.containers keys

/-- The pieces come from the parts. -/
structure Compiled (pieces : ObjectPieces compiler parts) : Prop where
  additional : optionally parts.additional = .ok pieces.additional
  declared : allCompiled parts.properties = .ok pieces.declared
  matchers : ObjectParts.matchers parts.patterns = .ok pieces.matchers
  groups : ObjectParts.groups compiler.options pieces.reserved pieces.matchers parts.patterns =
    .ok pieces.groups

theorem names_declared {pieces : ObjectPieces compiler parts} (compiled : pieces.Compiled) :
    Entries.names pieces.declared = Entries.names parts.properties := by
  rw [allCompiled_eq_ok compiled.declared, Entries.names, Entries.names, List.map_map]
  rfl

/-- A field is declared, or required and then like an additional property. -/
theorem get?_fields {pieces : ObjectPieces compiler parts} (compiled : pieces.Compiled)
    {name : String} {field : Generator} (found : Entries.get? pieces.fields name = some field) :
    Entries.get? parts.properties name = some (.ok field) ∨
      Entries.get? parts.properties name = none ∧ name ∈ parts.required ∧
        field = pieces.additional.getD compiler.arbitrary := by
  rw [fields, Entries.get?_append] at found
  cases declared : Entries.get? pieces.declared name with
  | some generator =>
    rw [declared] at found
    cases found
    refine .inl ?_
    have images := Entries.get?_map pieces.declared name fun generator =>
      (.ok generator : Except SampleError Generator)
    rw [allCompiled_eq_ok compiled.declared, images, declared]
    rfl
  | none =>
    -- What is found behind the declared properties is a required name that is none of them.
    rw [declared] at found
    have listed := Entries.mem_of_get?_eq_some found
    obtain ⟨key, undeclared, same⟩ := List.mem_map.mp listed
    cases same
    have required := (List.mem_filter.mp undeclared).1
    have absent := Entries.get?_eq_none_iff.mp declared
    rw [names_declared compiled] at absent
    exact .inr ⟨Entries.get?_eq_none_iff.mpr absent, List.mem_eraseDups.mp required, rfl⟩

theorem mem_reserved {pieces : ObjectPieces compiler parts} (compiled : pieces.Compiled)
    {name : String} :
    name ∈ pieces.reserved ↔ name ∈ Entries.names parts.properties ∨ name ∈ parts.required := by
  have split : pieces.reserved = Entries.names pieces.declared ++
      parts.undeclared parts.required.eraseDups := by
    rw [reserved, fields, Entries.names, List.map_append, List.map_map]
    exact congrArg _ (List.map_id _)
  rw [split, List.mem_append, names_declared compiled, ObjectParts.undeclared, List.mem_filter,
    List.mem_eraseDups]
  by_cases declared : name ∈ Entries.names parts.properties
  · simp [declared]
  · simp [declared, Entries.has_iff_mem_names.not.mpr declared]

/-- Members that stand for the fields of a record, one each, have the keys of its set; beside the
values of these keys there are only containers. -/
theorem members_of_fieldwise {pieces : ObjectPieces compiler parts} {keys : List String}
    {holds : Generator → Json → Prop} {members : List (String × Json)}
    (fieldwise : List.Forall₂ (fun field member => field.1 = member.1 ∧ holds field.2 member.2)
      ((keys.filterMap fun key => (Entries.get? pieces.fields key).map fun field => (key, field)) ++
        pieces.containers) members) :
    (∀ member ∈ Entries.ofList members,
      (member.1 ∈ keys ∧ ∃ field, Entries.get? pieces.fields member.1 = some field ∧
        holds field member.2) ∨
      ∃ container ∈ pieces.containers, container.1 = member.1 ∧ holds container.2 member.2) ∧
    ∀ key ∈ keys, key ∈ pieces.reserved → key ∈ Entries.names (Entries.ofList members) := by
  refine ⟨fun member present => ?_, fun key listed known => ?_⟩
  · obtain ⟨field, present, named, holds⟩ :=
      Generator.exists_left_of_mem fieldwise (Entries.mem_of_mem_ofList present)
    rcases List.mem_append.mp present with own | container
    · obtain ⟨key, listed, paired⟩ := List.mem_filterMap.mp own
      obtain ⟨generator, found, rfl⟩ := Option.map_eq_some_iff.mp paired
      exact .inl ⟨named ▸ listed, generator, named ▸ found, holds⟩
    · exact .inr ⟨field, container, named, holds⟩
  · rw [Entries.mem_names_ofList, Generator.names_eq_of_fieldwise fieldwise]
    obtain ⟨field, found⟩ := Entries.exists_get?_of_mem_names known
    refine List.mem_map.mpr ⟨(key, field), List.mem_append_left _ ?_, rfl⟩
    exact List.mem_filterMap.mpr ⟨key, listed, by rw [found]; rfl⟩

/-- A draw of a record has the keys of its set, and beside their values only containers. -/
theorem record_members {pieces : ObjectPieces compiler parts} {keys : List String}
    {options : Options} {reach : Nat → Json → Prop} {drawn : Json}
    (yielded : (pieces.record keys).Yields options reach drawn) :
    ∃ members : Entries Json, drawn = .obj members ∧
      (∀ member ∈ members,
        (member.1 ∈ keys ∧ ∃ field, Entries.get? pieces.fields member.1 = some field ∧
          field.Yields options reach member.2) ∨
        ∃ container ∈ pieces.containers, container.1 = member.1 ∧
          container.2.Yields options reach member.2) ∧
      ∀ key ∈ keys, key ∈ pieces.reserved → key ∈ Entries.names members := by
  obtain ⟨members, same, fieldwise⟩ := yielded
  exact ⟨Entries.ofList members, same,
    members_of_fieldwise (Generator.yieldsFields_iff.mp fieldwise)⟩

theorem mem_containers {pieces : ObjectPieces compiler parts} {container : String × Generator}
    (present : container ∈ pieces.containers) :
    (∃ values, pieces.additional = some values ∧
      container = (compiler.options.keys.additionalProperties,
        ObjectParts.additionalEntries compiler.options pieces.reserved pieces.matchers values)) ∨
      container = (compiler.options.keys.patternProperties, .record pieces.groups) ∧
        pieces.groups ≠ [] := by
  rcases List.mem_append.mp present with additional | pattern
  · cases found : pieces.additional with
    | none =>
      rw [found] at additional
      cases additional
    | some values =>
      rw [found] at additional
      exact .inl ⟨values, rfl, List.mem_singleton.mp additional⟩
  · split at pattern
    next => cases pattern
    next some =>
      refine .inr ⟨List.mem_singleton.mp pattern, fun none => some ?_⟩
      rw [none]
      rfl

end ObjectPieces

/-- The sets of optional properties of an object. -/
def ObjectParts.sets (parts : ObjectParts) : List (List String) :=
  propertySets parts.dependencies parts.required.eraseDups
    ((Entries.names parts.properties).filter fun key => !parts.required.eraseDups.contains key)

theorem known_of_sets {parts : ObjectParts} {subset : List String} (chosen : subset ∈ parts.sets) :
    ∀ name ∈ parts.required.eraseDups ++ subset,
      name ∈ Entries.names parts.properties ∨ name ∈ parts.required := by
  intro name listed
  rcases List.mem_append.mp listed with wanted | optional
  · exact .inr (List.mem_eraseDups.mp wanted)
  · have declared := (mem_subsets.mp (mem_propertySets.mp chosen).1).subset optional
    exact .inl (List.mem_filter.mp declared).1

/-- A compiled object is the record of its only set of properties, or a choice among the records of
all sets. -/
theorem object_eq_ok {compiler : Compiler} {parts : ObjectParts} {generator : Generator}
    (compiled : compiler.object parts = .ok generator) :
    ∃ pieces : ObjectPieces compiler parts, pieces.Compiled ∧
      ((∃ subset, parts.sets = [subset] ∧
          generator = pieces.record (parts.required.eraseDups ++ subset)) ∨
        Generator.choiceOf "structural.object"
          (parts.sets.map fun subset => pieces.record (parts.required.eraseDups ++ subset))
          (some 0) = .ok generator) := by
  unfold object at compiled
  dsimp only at compiled
  split at compiled
  next => cases compiled
  next =>
    obtain ⟨additional, additionalOk, compiled⟩ := Except.bind_eq_ok.mp compiled
    obtain ⟨declared, declaredOk, compiled⟩ := Except.bind_eq_ok.mp compiled
    obtain ⟨matchers, matchersOk, compiled⟩ := Except.bind_eq_ok.mp compiled
    obtain ⟨groups, groupsOk, compiled⟩ := Except.bind_eq_ok.mp compiled
    let pieces : ObjectPieces compiler parts := ⟨additional, declared, matchers, groups⟩
    refine ⟨pieces, ⟨additionalOk, declaredOk, matchersOk, groupsOk⟩, ?_⟩
    split at compiled
    next record one =>
      cases compiled
      obtain ⟨subset, alone, same⟩ := List.map_eq_singleton_iff.mp one
      exact .inl ⟨subset, alone, same.symm⟩
    next => exact .inr (Except.asInvalid_eq_ok.mp compiled)

theorem object_yields {compiler : Compiler} {parts : ObjectParts} {generator : Generator}
    (compiled : compiler.object parts = .ok generator) {options : Options}
    {reach : Nat → Json → Prop} {drawn : Json} (yielded : generator.Yields options reach drawn) :
    ∃ pieces : ObjectPieces compiler parts, pieces.Compiled ∧ ∃ subset ∈ parts.sets,
      (pieces.record (parts.required.eraseDups ++ subset)).Yields options reach drawn := by
  obtain ⟨pieces, built, ⟨subset, alone, rfl⟩ | chosen⟩ := object_eq_ok compiled
  · exact ⟨pieces, built, subset, alone ▸ List.mem_singleton_self _, yielded⟩
  · obtain ⟨record, listed, holds⟩ := Generator.choiceOf_yields chosen yielded
    obtain ⟨subset, present, rfl⟩ := List.mem_map.mp listed
    exact ⟨pieces, built, subset, present, holds⟩

end Compiler

end SchemaSampler
