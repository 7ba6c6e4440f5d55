import SchemaSampler.Proofs.Compile.Order
import SchemaSampler.Proofs.Hoist.Objects

/-!
# Dependencies of drawn members

The sets of names of an object are closed under its dependencies. Every declared or required name
of a draw belongs to such a set, so what it depends on is there. The keys of dictionaries join after
the set was chosen, and nothing checks what they depend on.

Results:
1. `Compiler.dependencies_drawn`: what the names of the sets depend on is drawn.
2. `Sampler.pattern_member_alone`: a key of a pattern's group without what it depends on.
-/

namespace SchemaSampler

namespace ObjectSpec

/-- The sets of names decide whether the name is drawn: it is declared or required, and no text of
a pattern that may become a key because both containers have the same one. -/
def Decides (keys : SyntheticKeys) (spec : ObjectSpec Node) (name : String) : Prop :=
  (name ∈ Entries.names spec.properties ∨ name ∈ spec.required) ∧
    (keys.additionalProperties ≠ keys.patternProperties ∨ name ∉ Entries.names spec.patterns)

/-- No dictionary draws further keys. -/
def Closed (spec : ObjectSpec Node) : Prop :=
  (spec.additional = .absent ∨ spec.additional = .forbidden) ∧ spec.patterns = []

end ObjectSpec

namespace Compiler

variable {compiler : Compiler} {parts : ObjectParts}

namespace ObjectPieces

variable {pieces : ObjectPieces compiler parts} {bodies : Generator.Bodies} {depth : Nat}
  {names : List String} {name : String} {value : Json}

/-- Dictionaries draw no names of fields. -/
theorem Origin.mem_of_reserved (origin : pieces.Origin bodies depth names name value)
    (known : name ∈ pieces.reserved)
    (apart : compiler.options.keys.additionalProperties ≠ compiler.options.keys.patternProperties ∨
      name ∉ Entries.names parts.patterns) : name ∈ names := by
  cases origin with
  | field own _ _ => exact own
  | further free _ _ _ => exact absurd known free
  | grouped free _ _ _ => exact absurd known free
  | group same listed => exact apart.elim (absurd same) (absurd listed)

/-- Without dictionaries there are only fields. -/
theorem Origin.mem_of_no_containers (origin : pieces.Origin bodies depth names name value)
    (additional : pieces.additional = none) (patterns : parts.patterns = []) : name ∈ names := by
  cases origin with
  | field own _ _ => exact own
  | further _ _ found _ =>
    rw [additional] at found
    cases found
  | grouped _ _ listed _ =>
    rw [patterns] at listed
    cases listed
  | group _ listed =>
    rw [patterns] at listed
    cases listed

end ObjectPieces

theorem dependencies_of_sets {subset : List String} (present : subset ∈ parts.sets) {name : String}
    (own : name ∈ parts.required.eraseDups ++ subset) {needed : List String}
    (depends : parts.dependencies.get? name = some needed) :
    needed ⊆ parts.required.eraseDups ++ subset :=
  dependenciesHold_iff.mp (mem_propertySets.mp present).2 name own needed depends

variable {spec : ObjectSpec Node}

/-- In a hoisted draw of an object, every member has what it depends on beside it, if the sets of
names decide on the member, if no dictionary draws members, or if it depends on required names. -/
theorem dependencies_drawn {generator : Generator}
    (compiled : compiler.compile (.object spec) = .ok generator)
    (properties : ∀ name ∈ Entries.names spec.properties,
      compiler.options.keys.contains name = false)
    (required : ∀ name ∈ spec.required, compiler.options.keys.contains name = false)
    {bodies : Generator.Bodies} {cursor : Cursor} {value : Json}
    (drawn : (Generator.draw compiler.options bodies
      (.map generator (hoist compiler.options.keys)) cursor).1 = .ok value) :
    ∃ members, value = .obj members ∧ ∀ name ∈ Entries.names members, ∀ needed,
      spec.dependencies.get? name = some needed →
      spec.Decides compiler.options.keys name ∨ spec.Closed ∨ needed ⊆ spec.required →
      needed ⊆ Entries.names members := by
  obtain ⟨pieces, built, subset, chosen, members, rfl, kept, each⟩ :=
    hoisted_object_draws compiled properties required ⟨cursor.source, drawn⟩
  refine ⟨members, rfl, fun name present needed depends reason => ?_⟩
  obtain ⟨⟨_, inner⟩, listed, rfl⟩ := List.mem_map.mp present
  have origin := each _ listed
  rcases reason with ⟨known, apart⟩ | ⟨additional, patterns⟩ | wanted
  · rw [← names_properties compiler] at known
    rw [← names_patterns compiler] at apart
    have own := origin.mem_of_reserved ((ObjectPieces.mem_reserved built).mpr known) apart
    exact List.Subset.trans (dependencies_of_sets chosen own depends) kept
  · have source : compiler.compileAdditional spec.additional = pieces.additional.map .ok :=
      optionally_eq_ok built.additional
    have none : pieces.additional = none := by
      rcases additional with same | same <;> rw [same] at source <;>
        exact Option.map_eq_none_iff.mp source.symm
    have empty : (compiler.parts spec).patterns = [] := by
      rw [parts, patterns, List.map_nil]
    have own := origin.mem_of_no_containers none empty
    exact List.Subset.trans (dependencies_of_sets chosen own depends) kept
  · exact fun other listed => kept (List.mem_append_left _ (List.mem_eraseDups.mpr (wanted listed)))

/-- Two names, of which the first depends on the second, and keys that match a pattern. -/
def pairSpec : ObjectSpec Node :=
  ⟨[("a", .null), ("b", .null)], [], .absent, [("^x$", .boolean)], [("a", ["b"])], []⟩

/-- The record of one of the sets. -/
def pairRecord (own : List (String × Generator)) : Generator :=
  .record (own ++ [(({} : SyntheticKeys).patternProperties, .record
    [("^x$", .dictionary (.pattern ⟨"^x$", .literal {} ['x']⟩) .boolean 4 ["a", "b"] [])])])

/-- No set has the first name alone. -/
def pairBody : Generator :=
  .choice "structural.object" [pairRecord [], pairRecord [("b", .constant .null)],
    pairRecord [("a", .constant .null), ("b", .constant .null)]] (some 0)

theorem compile_pairSpec (defaults : compiler.options = {}) :
    compiler.compile (.object pairSpec) = .ok pairBody := by
  -- The sets are sorted, which only an evaluation by rewriting gets through.
  have sets : propertySets [("a", ["b"])] ([] : List String).eraseDups
      ((Entries.names (compiler.compileEntries [("a", .null), ("b", .null)])).filter
        fun key => !([] : List String).eraseDups.contains key) = [[], ["b"], ["a", "b"]] := by cbv
  show compiler.object _ = _
  dsimp only [Compiler.object]
  rw [sets, defaults]
  rfl

theorem pair_dependencies_drawn :
    Compiler.compile ⟨{}, {}, .obj [], []⟩ (.object pairSpec) = .ok pairBody ∧
      (∀ name ∈ Entries.names pairSpec.properties, ({} : SyntheticKeys).contains name = false) ∧
      (∀ name ∈ pairSpec.required, ({} : SyntheticKeys).contains name = false) ∧
      (Generator.draw {} [] (.map pairBody (hoist {}))
        ⟨.cycle #[0xF0000000, 0x50000000, 0x90000000, 0], 0⟩).1 =
          .ok (.obj [("a", .null), ("b", .null), ("x", .bool true)]) ∧
      pairSpec.Decides {} "a" ∧ pairSpec.dependencies.get? "a" = some ["b"] ∧
      ["b"] ⊆ ["a", "b", "x"] := by
  have compiled : Compiler.compile ⟨{}, {}, .obj [], []⟩ (.object pairSpec) = .ok pairBody :=
    compile_pairSpec rfl
  have drawn : (Generator.draw {} [] (.map pairBody (hoist {}))
      ⟨.cycle #[0xF0000000, 0x50000000, 0x90000000, 0], 0⟩).1 =
        .ok (.obj [("a", .null), ("b", .null), ("x", .bool true)]) := by cbv
  obtain ⟨members, same, holds⟩ := dependencies_drawn compiled (by decide) (by decide) drawn
  cases same
  have decides : pairSpec.Decides {} "a" := ⟨.inl (by decide), .inl (by decide)⟩
  exact ⟨compiled, by decide, by decide, drawn, decides, rfl,
    holds "a" (by decide) ["b"] rfl (.inl decides)⟩

end Compiler

namespace Sampler

/-- Keys that match a pattern are null, and one of them depends on another name. -/
def loneSchema : Json :=
  .obj [("dependencies", .obj [("a", .strings ["b"])]),
    ("patternProperties", .obj [("^a$", .obj [("type", .str "null")])]),
    ("type", .str "object")]

def loneSpec : ObjectSpec Node := ⟨[], [], .absent, [("^a$", .null)], [("a", ["b"])], []⟩

def loneDocument : Document := ⟨.object loneSpec, [], .obj []⟩

def loneBody : Generator :=
  .record [(({} : SyntheticKeys).patternProperties, .record
    [("^a$", .dictionary (.pattern ⟨"^a$", .literal {} ['a']⟩) (.constant .null) 4 [] [])])]

def loneSampler : Sampler := ⟨loneBody, ⟨["#"], [loneBody]⟩, {}⟩

theorem compile_loneSchema : compileHoisted loneSchema {} [] = .ok loneSampler.hoisted := by
  have sets : Compiler.propertySets [("a", ["b"])] ([] : List String).eraseDups
      ((Entries.names ((loneDocument.compiler {} []).compileEntries [])).filter
        fun key => !([] : List String).eraseDups.contains key) = [[]] :=
    Compiler.propertySets_nil rfl
  have root : (loneDocument.compiler {} []).compile loneDocument.root = .ok loneBody := by
    show Compiler.object _ _ = _
    dsimp only [Compiler.object]
    rw [sets]
    rfl
  exact compileHoisted_of_root rfl root

/-- The name that the key depends on is missing, and the schema does not admit the draw. -/
theorem pattern_member_alone :
    Node.classify loneSchema = .ok (.object loneSpec) ∧
      ({} : SyntheticKeys).contains "a" = false ∧
      compileHoisted loneSchema {} [] = .ok loneSampler.hoisted ∧
      loneSpec.dependencies.get? "a" = some ["b"] ∧
      (loneSampler.hoisted.draw (.cycle #[0x50000000, 0x90000000, 0])).1 =
        .ok (.obj [("a", .null)]) ∧
      (Validator.ofSchema? loneSchema).any
        fun validator => !validator.isValid (.obj [("a", .null)]) :=
  ⟨rfl, by decide, compile_loneSchema, rfl, by cbv, rfl⟩

end Sampler

end SchemaSampler
