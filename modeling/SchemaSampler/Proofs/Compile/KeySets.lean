import SchemaSampler.Proofs.Compile.Failures
import SchemaSampler.Proofs.Draw.Recursion
import SchemaSampler.Proofs.FirstOccurrences

/-!
# Key sets of objects

A compiled object draws one of several sets of names. These are the sets which have the required
names, no unknown ones, and with every name all that it depends on. What the required names need in
the end belongs to each of them, so it is the least set, unless it leads to an unknown name: then
there is no set at all.

Results:
1. `ObjectSpec.Admits`, `ObjectSpec.Needs`: the sets of an object and the least of them.
2. `ObjectSpec.keyLists_enumerate`: the sets in order, each once.
3. `Compiler.object_key_sets`: they are the alternatives of the compiled object, which fails for
   want of a set only if there is none.
-/

namespace SchemaSampler

namespace ObjectSpec

variable {α : Type} {spec : ObjectSpec α} {keys : Finset String}

/-! ## Sets that an object may have -/

/-- The name is declared or required. -/
def Known (spec : ObjectSpec α) (name : String) : Prop :=
  name ∈ Entries.names spec.properties ∨ name ∈ spec.required

instance (spec : ObjectSpec α) (name : String) : Decidable (spec.Known name) :=
  inferInstanceAs (Decidable (_ ∨ _))

/-- The set has the required names and no unknown ones, and whatever its names depend on. -/
structure Admits (spec : ObjectSpec α) (keys : Finset String) : Prop where
  required : ∀ name ∈ spec.required, name ∈ keys
  known : ∀ name ∈ keys, spec.Known name
  closed : ∀ name ∈ keys, ∀ names, spec.dependencies.get? name = some names →
    ∀ other ∈ names, other ∈ keys

/-- The name is required, or another one that is needed depends on it. -/
inductive Needs (spec : ObjectSpec α) : String → Prop
  | required {name : String} : name ∈ spec.required → Needs spec name
  | dependency {name other : String} {names : List String} : Needs spec name →
      spec.dependencies.get? name = some names → other ∈ names → Needs spec other

/-- Every set has what is needed. -/
theorem Admits.needed (admits : spec.Admits keys) {name : String} (needs : spec.Needs name) :
    name ∈ keys := by
  induction needs with
  | required wanted => exact admits.required _ wanted
  | dependency _ depends listed ih => exact admits.closed _ ih _ depends _ listed

/-- What is needed is a set itself if all of it is known. -/
theorem exists_admits_needed (known : ∀ name, spec.Needs name → spec.Known name) :
    ∃ least, spec.Admits least ∧ ∀ name, name ∈ least ↔ spec.Needs name := by
  classical
  let all := (Entries.names spec.properties ++ spec.required).toFinset
  have member : ∀ name, name ∈ all.filter spec.Needs ↔ spec.Needs name := by
    intro name
    rw [Finset.mem_filter, List.mem_toFinset, List.mem_append]
    exact ⟨And.right, fun needs => ⟨known name needs, needs⟩⟩
  refine ⟨all.filter spec.Needs, ⟨fun name wanted => ?_, fun name present => ?_,
    fun name present names depends other listed => ?_⟩, member⟩
  · exact (member name).mpr (.required wanted)
  · exact known name ((member name).mp present)
  · exact (member other).mpr (((member name).mp present).dependency depends listed)

/-- The sets are those of the object, each once, smaller ones first, and the first one is what the
object needs. -/
structure Enumerates (spec : ObjectSpec α) (sets : List (Finset String)) : Prop where
  exactly : ∀ keys, keys ∈ sets ↔ spec.Admits keys
  once : sets.Nodup
  ascending : sets.Pairwise fun smaller larger => smaller.card ≤ larger.card
  least : ∀ first, sets.head? = some first →
    (∀ name, name ∈ first ↔ spec.Needs name) ∧ ∀ keys ∈ sets, first ⊆ keys

/-! ## Sets as lists -/

/-- The declared names that are not required. -/
def optional (spec : ObjectSpec α) : List String :=
  (Entries.names spec.properties).filter fun key => !spec.required.eraseDups.contains key

/-- The names of the records of an object: the required ones and then a set of optional ones. -/
def keyLists (spec : ObjectSpec α) : List (List String) :=
  (Compiler.propertySets spec.dependencies spec.required.eraseDups spec.optional).map fun subset =>
    spec.required.eraseDups ++ subset

theorem mem_optional {name : String} :
    name ∈ spec.optional ↔ name ∈ Entries.names spec.properties ∧ name ∉ spec.required := by
  simp [optional]

theorem mem_keyLists {names : List String} :
    names ∈ spec.keyLists ↔ ∃ subset, subset.Sublist spec.optional ∧
      Compiler.dependenciesHold spec.dependencies (spec.required.eraseDups ++ subset) = true ∧
      spec.required.eraseDups ++ subset = names := by
  simp only [keyLists, List.mem_map, Compiler.mem_propertySets, mem_subsets, and_assoc]

theorem mem_map_keyLists : keys ∈ spec.keyLists.map List.toFinset ↔ spec.Admits keys := by
  rw [List.mem_map]
  constructor
  · rintro ⟨_, listed, rfl⟩
    obtain ⟨subset, chosen, holds, rfl⟩ := mem_keyLists.mp listed
    refine ⟨fun name wanted => ?_, fun name present => ?_,
      fun name present names depends other needed => ?_⟩
    · exact List.mem_toFinset.mpr (List.mem_append_left _ (List.mem_eraseDups.mpr wanted))
    · rcases List.mem_append.mp (List.mem_toFinset.mp present) with wanted | own
      · exact .inr (List.mem_eraseDups.mp wanted)
      · exact .inl (mem_optional.mp (chosen.subset own)).1
    · rw [List.mem_toFinset] at present ⊢
      exact Compiler.dependenciesHold_iff.mp holds name present names depends needed
  · intro admits
    -- The optional names of the set, in the order of their declaration.
    let subset := spec.optional.filter fun name => name ∈ keys
    have member : ∀ name, name ∈ spec.required.eraseDups ++ subset ↔ name ∈ keys := by
      intro name
      rw [List.mem_append, List.mem_eraseDups, List.mem_filter, mem_optional,
        decide_eq_true_iff]
      constructor
      · exact fun either => either.elim (admits.required name) And.right
      · intro present
        by_cases wanted : name ∈ spec.required
        · exact .inl wanted
        · exact .inr ⟨⟨(admits.known name present).resolve_right wanted, wanted⟩, present⟩
    refine ⟨_, mem_keyLists.mpr ⟨subset, List.filter_sublist, ?_, rfl⟩, ?_⟩
    · refine Compiler.dependenciesHold_iff.mpr fun name present names depends other needed => ?_
      exact (member other).mpr (admits.closed name ((member name).mp present) names depends other needed)
    · ext name
      rw [List.mem_toFinset]
      exact member name

theorem keyLists_eq_nil : spec.keyLists = [] ↔ ∃ name, spec.Needs name ∧ ¬ spec.Known name := by
  constructor
  · intro none
    by_contra all
    push Not at all
    obtain ⟨least, admits, -⟩ := exists_admits_needed all
    have listed := mem_map_keyLists.mpr admits
    rw [none] at listed
    cases listed
  · rintro ⟨name, needs, unknown⟩
    rw [List.eq_nil_iff_forall_not_mem]
    intro names listed
    have admits := mem_map_keyLists.mp (List.mem_map_of_mem listed)
    exact unknown (admits.known name (admits.needed needs))

section Distinct

variable (distinct : (Entries.names spec.properties).Nodup)

include distinct

theorem nodup_optional : spec.optional.Nodup := distinct.filter _

theorem nodup_of_keyLists {names : List String} (listed : names ∈ spec.keyLists) : names.Nodup := by
  obtain ⟨subset, chosen, -, rfl⟩ := mem_keyLists.mp listed
  refine (nodup_eraseDups _).append ((nodup_optional distinct).sublist chosen) ?_
  intro name wanted present
  exact (mem_optional.mp (chosen.subset present)).2 (List.mem_eraseDups.mp wanted)

theorem nodup_map_keyLists : (spec.keyLists.map List.toFinset).Nodup := by
  have lists : spec.keyLists.Nodup := by
    refine List.Nodup.map (List.append_right_injective _) ?_
    unfold Compiler.propertySets
    rw [List.nodup_mergeSort, subsets_eq_sublists]
    exact (List.nodup_sublists.mpr (nodup_optional distinct)).filter _
  refine lists.map_on fun names listed others also same => ?_
  have permuted := List.perm_of_nodup_nodup_toFinset_eq (nodup_of_keyLists distinct listed)
    (nodup_of_keyLists distinct also) same
  obtain ⟨subset, chosen, -, rfl⟩ := mem_keyLists.mp listed
  obtain ⟨other, further, -, rfl⟩ := mem_keyLists.mp also
  -- Sublists of one list without repetitions are equal if they have the same members.
  rw [List.perm_append_left_iff] at permuted
  rw [((nodup_optional distinct).perm_iff_eq_of_sublist chosen further).mp permuted]

theorem ascending_map_keyLists :
    (spec.keyLists.map List.toFinset).Pairwise fun smaller larger => smaller.card ≤ larger.card := by
  have lists : spec.keyLists.Pairwise fun shorter longer => shorter.length ≤ longer.length := by
    have sorted := @List.pairwise_mergeSort _ (fun a b : List String => a.length ≤ b.length)
      (fun a b c first second => by simp only [decide_eq_true_eq] at *; omega)
      (fun a b => by simp only [Bool.or_eq_true, decide_eq_true_eq]; omega)
      ((subsets spec.optional).filter fun subset =>
        Compiler.dependenciesHold spec.dependencies (spec.required.eraseDups ++ subset))
    refine sorted.map _ fun shorter longer before => ?_
    simpa using before
  rw [List.pairwise_map]
  refine lists.imp_of_mem fun {shorter longer} listed also before => ?_
  rwa [List.toFinset_card_of_nodup (nodup_of_keyLists distinct listed),
    List.toFinset_card_of_nodup (nodup_of_keyLists distinct also)]

/-- The lists enumerate the sets of the object. -/
theorem keyLists_enumerate : spec.Enumerates (spec.keyLists.map List.toFinset) := by
  have exactly : ∀ keys, keys ∈ spec.keyLists.map List.toFinset ↔ spec.Admits keys :=
    fun _ => mem_map_keyLists
  have ascending := ascending_map_keyLists distinct
  refine ⟨exactly, nodup_map_keyLists distinct, ascending, fun first found => ?_⟩
  have own : spec.Admits first := (exactly first).mp (List.mem_of_head? found)
  obtain ⟨least, admits, member⟩ :=
    exists_admits_needed fun name needs => own.known name (own.needed needs)
  -- The least set is one of the sets, so the first one cannot be larger.
  have below : least ⊆ first := fun name present => own.needed ((member name).mp present)
  have listed := (exactly least).mpr admits
  have same : least = first := by
    obtain ⟨rest, split⟩ := List.head?_eq_some_iff.mp found
    rw [split] at listed ascending
    rcases List.mem_cons.mp listed with same | later
    · exact same
    · exact Finset.eq_of_subset_of_card_le below ((List.pairwise_cons.mp ascending).1 least later)
  subst same
  exact ⟨member, fun keys present name needed =>
    ((exactly keys).mp present).needed ((member name).mp needed)⟩

end Distinct

end ObjectSpec

/-! ## Alternatives of an object -/

/-- The alternatives of a choice; any other generator is its own only one. -/
def Generator.alternatives : Generator → List Generator
  | .choice _ alternatives _ => alternatives
  | generator => [generator]

theorem Generator.ne_nil_of_choiceOf {label : String} {alternatives : List Generator}
    {minimal : Option Nat} {generator : Generator}
    (built : choiceOf label alternatives minimal = .ok generator) : alternatives ≠ [] := by
  rintro rfl
  cases built

/-- When recursion winds down, a choice draws its minimal alternative. -/
theorem Generator.draw_choice_of_windingDown {options : Options} {label : String}
    {alternatives : List Generator} {minimal : Nat} {alternative : Generator}
    (found : alternatives[minimal]? = some alternative) {cursor : Cursor}
    (deep : options.limits.windDownDepth ≤ cursor.depth) (bodies : Bodies) :
    draw options bodies (.choice label alternatives (some minimal)) cursor =
      draw options bodies alternative cursor := by
  have place : drawPlace options alternatives.length (some minimal) cursor =
      (.ok minimal, cursor) := by
    have winding : windingDown options cursor = (.ok true, cursor) := by
      show (Except.ok (decide (options.limits.windDownDepth ≤ cursor.depth)), cursor) = _
      rw [decide_eq_true deep]
    exact Draw.bind_of_ok winding
  rw [draw_eq, draw_eq, drawWith, Draw.bind_of_ok place, drawNth_eq, found]

namespace Compiler

variable {compiler : Compiler} {spec : ObjectSpec Node}

theorem sets_parts (compiler : Compiler) (spec : ObjectSpec Node) :
    (compiler.parts spec).sets.map (fun subset => spec.required.eraseDups ++ subset) =
      spec.keyLists := by
  unfold ObjectParts.sets ObjectSpec.keyLists ObjectSpec.optional
  rw [names_properties]
  rfl

theorem sets_parts_eq_nil (compiler : Compiler) (spec : ObjectSpec Node) :
    (compiler.parts spec).sets = [] ↔ ∃ name, spec.Needs name ∧ ¬ spec.Known name := by
  rw [← ObjectSpec.keyLists_eq_nil, ← sets_parts compiler, List.map_eq_nil_iff]

namespace ObjectPieces

variable {parts : ObjectParts} {pieces : ObjectPieces compiler parts}

/-- The fields of a record outside its containers. -/
def own (pieces : ObjectPieces compiler parts) (keys : List String) : List (String × Generator) :=
  keys.filterMap fun key => (Entries.get? pieces.fields key).map fun field => (key, field)

theorem names_own {keys : List String} (known : keys ⊆ pieces.reserved) :
    Entries.names (pieces.own keys) = keys := by
  induction keys with
  | nil => rfl
  | cons key rest ih =>
    obtain ⟨field, found⟩ := Entries.exists_get?_of_mem_names (known List.mem_cons_self)
    have later := ih fun other present => known (List.mem_cons_of_mem _ present)
    rw [own, List.filterMap_cons, found]
    exact congrArg (List.cons key) later

theorem keyLists_known {pieces : ObjectPieces compiler (compiler.parts spec)}
    (built : pieces.Compiled) {keys : List String} (listed : keys ∈ spec.keyLists) :
    keys ⊆ pieces.reserved := by
  intro name present
  have admits := ObjectSpec.mem_map_keyLists.mp (List.mem_map_of_mem listed)
  have known := admits.known name (List.mem_toFinset.mpr present)
  rw [ObjectSpec.Known, ← names_properties compiler] at known
  exact (mem_reserved built).mpr known

end ObjectPieces

/-- The alternatives of a compiled object are the records of its lists of names, the first of which
is drawn when recursion winds down. -/
theorem alternatives_of_object {generator : Generator}
    (compiled : compiler.compile (.object spec) = .ok generator) :
    ∃ pieces : ObjectPieces compiler (compiler.parts spec), pieces.Compiled ∧
      generator.alternatives = spec.keyLists.map pieces.record ∧
      ∃ first, generator.alternatives.head? = some first ∧ ∀ bodies cursor,
        compiler.options.limits.windDownDepth ≤ cursor.depth →
        Generator.draw compiler.options bodies generator cursor =
          Generator.draw compiler.options bodies first cursor := by
  rw [compile_object] at compiled
  obtain ⟨pieces, built, ⟨subset, alone, rfl⟩ | chosen⟩ := object_eq_ok compiled
  · refine ⟨pieces, built, ?_, _, rfl, fun _ _ _ => rfl⟩
    rw [← sets_parts compiler, alone]
    rfl
  · have records : ((compiler.parts spec).sets.map fun subset =>
        pieces.record ((compiler.parts spec).required.eraseDups ++ subset)) =
          spec.keyLists.map pieces.record := by
      rw [← sets_parts compiler, List.map_map]
      rfl
    rw [records] at chosen
    obtain ⟨first, rest, split⟩ :=
      List.exists_cons_of_ne_nil (Generator.ne_nil_of_choiceOf chosen)
    rw [split] at chosen
    cases chosen
    exact ⟨pieces, built, split.symm, first, rfl, fun bodies cursor deep =>
      Generator.draw_choice_of_windingDown rfl deep bodies⟩

/-- The alternatives of a compiled object have exactly the sets of names of the object, each once,
smaller ones first; the first one, which is drawn when recursion winds down, has what the object
needs and belongs to all others. If the object needs an unknown name it fails for want of a set;
else it fails only where an inner schema does or a pattern has no matcher or no synthesizer. -/
theorem object_key_sets (compiler : Compiler) (spec : ObjectSpec Node)
    (distinct : (Entries.names spec.properties).Nodup) :
    (∀ generator, compiler.compile (.object spec) = .ok generator →
      ∃ (records : List (List (String × Generator))) (containers : List (String × Generator)),
        generator.alternatives = records.map (fun fields => .record (fields ++ containers)) ∧
        (∀ container ∈ containers, container.1 = compiler.options.keys.additionalProperties ∨
          container.1 = compiler.options.keys.patternProperties) ∧
        (∀ fields ∈ records, (Entries.names fields).Nodup) ∧
        spec.Enumerates (records.map fun fields => (Entries.names fields).toFinset) ∧
        ∃ first, generator.alternatives.head? = some first ∧ ∀ bodies cursor,
          compiler.options.limits.windDownDepth ≤ cursor.depth →
          Generator.draw compiler.options bodies generator cursor =
            Generator.draw compiler.options bodies first cursor) ∧
    ((∃ name, spec.Needs name ∧ ¬ spec.Known name) →
      compiler.compile (.object spec) = .error (noPropertySet spec.required spec.dependencies)) ∧
    ((∀ name, spec.Needs name → spec.Known name) →
      ∀ error, compiler.compile (.object spec) = .error error →
        (∃ inner, inner.Inside (.object spec) ∧ compiler.compile inner = .error error) ∨
        ∃ text ∈ Entries.names spec.patterns, error = .invalidSchema (.badPattern text) ∧
          (Pattern.read? text = none ∨
            Synthesizer.ofPattern? text compiler.options.limits.maxRepeat = none)) := by
  refine ⟨fun generator compiled => ?_, fun unmet => ?_, fun met error failed => ?_⟩
  · obtain ⟨pieces, built, alternatives, first, found, drawn⟩ := alternatives_of_object compiled
    have names : spec.keyLists.map (fun keys => Entries.names (pieces.own keys)) = spec.keyLists :=
      (List.map_congr_left fun keys listed =>
        ObjectPieces.names_own (ObjectPieces.keyLists_known built listed)).trans (List.map_id' _)
    refine ⟨spec.keyLists.map pieces.own, pieces.containers, ?_, fun container present => ?_,
      fun fields listed => ?_, ?_, first, found, drawn⟩
    · rw [alternatives, List.map_map]
      rfl
    · rcases ObjectPieces.mem_containers present with ⟨_, -, rfl⟩ | ⟨rfl, -⟩
      · exact .inl rfl
      · exact .inr rfl
    · obtain ⟨keys, own, rfl⟩ := List.mem_map.mp listed
      rw [ObjectPieces.names_own (ObjectPieces.keyLists_known built own)]
      exact ObjectSpec.nodup_of_keyLists distinct own
    · have sets := ObjectSpec.keyLists_enumerate distinct
      rw [← names, List.map_map] at sets
      rwa [List.map_map]
  · rw [compile_object]
    exact object_of_sets_nil ((sets_parts_eq_nil compiler spec).mpr unmet)
  · rw [compile_object] at failed
    rcases object_eq_error failed with ⟨none, -⟩ | ⟨-, fails⟩
    · obtain ⟨name, needs, unknown⟩ := (sets_parts_eq_nil compiler spec).mp none
      exact absurd (met name needs) unknown
    · exact inside_of_fails fails

/-- A name that is required twice, and two others that depend on names of the object. -/
def chainedSpec : ObjectSpec Node :=
  ⟨[("a", .null), ("b", .null), ("c", .null)], ["c", "c"], .absent, [],
    [("a", ["b"]), ("c", ["b"])], []⟩

/-- The required name needs another one, and only the third one is left to choose. -/
def chainedBody : Generator :=
  .choice "structural.object"
    [.record [("c", .constant .null), ("b", .constant .null)],
      .record [("c", .constant .null), ("a", .constant .null), ("b", .constant .null)]] (some 0)

theorem compile_chainedSpec : compiler.compile (.object chainedSpec) = .ok chainedBody := by
  have sets : propertySets [("a", ["b"]), ("c", ["b"])] (["c", "c"] : List String).eraseDups
      ((Entries.names (compiler.compileEntries [("a", .null), ("b", .null), ("c", .null)])).filter
        fun key => !(["c", "c"] : List String).eraseDups.contains key) = [["b"], ["a", "b"]] := by
    cbv
  show compiler.object _ = _
  dsimp only [Compiler.object]
  rw [sets]
  rfl

/-- The required name depends on one that is neither declared nor required. -/
def unmetSpec : ObjectSpec Node := ⟨[("a", .null)], ["x"], .absent, [], [("x", ["y"])], []⟩

theorem chained_key_sets :
    (Entries.names chainedSpec.properties).Nodup ∧
      Compiler.compile ⟨{}, {}, .obj [], []⟩ (.object chainedSpec) = .ok chainedBody ∧
      chainedSpec.Admits {"c", "b"} ∧ ¬ chainedSpec.Admits {"c", "a"} ∧
      (∃ sets, chainedSpec.Enumerates sets ∧ sets.length = 2) ∧
      (Entries.names unmetSpec.properties).Nodup ∧
      Compiler.compile ⟨{}, {}, .obj [], []⟩ (.object unmetSpec) =
        .error (noPropertySet ["x"] [("x", ["y"])]) := by
  have distinct : (Entries.names chainedSpec.properties).Nodup := by decide
  have compiled : Compiler.compile ⟨{}, {}, .obj [], []⟩ (.object chainedSpec) = .ok chainedBody :=
    compile_chainedSpec
  obtain ⟨records, containers, alternatives, -, -, sets, -⟩ :=
    (object_key_sets ⟨{}, {}, .obj [], []⟩ chainedSpec distinct).1 chainedBody compiled
  have needs : unmetSpec.Needs "y" :=
    .dependency (show unmetSpec.Needs "x" from .required List.mem_cons_self) rfl
      List.mem_cons_self
  have unmet := (object_key_sets ⟨{}, {}, .obj [], []⟩ unmetSpec (by decide)).2.1
    ⟨"y", needs, by decide⟩
  refine ⟨distinct, compiled, ⟨?_, ?_, ?_⟩, fun admits => ?_, ⟨_, sets, ?_⟩, by decide, unmet⟩
  · decide
  · decide
  · decide
  · exact absurd (admits.closed "c" (by decide) ["b"] rfl "b" (by decide)) (by decide)
  · rw [List.length_map]
    have count := congrArg List.length alternatives
    rw [List.length_map] at count
    exact count.symm

end Compiler

end SchemaSampler
