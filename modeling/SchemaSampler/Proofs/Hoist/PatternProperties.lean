import SchemaSampler.Proofs.Compile.Order
import SchemaSampler.Proofs.Hoist.Objects

/-!
# Members that match a pattern

The keys of dictionaries keep clear of the patterns that do not govern them, so a drawn key that
matches a pattern has a value of that pattern. Required names that are not declared are no drawn
keys: they have the values of additional properties, also where they match a pattern.

Results:
1. `Compiler.matching_member_drawn`: the values of members that match a pattern.
2. `Sampler.required_member_unmatched`: a required name whose value is not that of its pattern.
-/

namespace SchemaSampler

namespace Compiler

variable {compiler : Compiler} {spec : ObjectSpec Node}

/-- What the required names that are not declared are drawn from: the schema of additional
properties, or any values where none is given. -/
def Undeclared (compiler : Compiler) (spec : ObjectSpec Node) (values : Generator) : Prop :=
  compiler.compileAdditional spec.additional = some (.ok values) ∨
    compiler.compileAdditional spec.additional = none ∧ values = compiler.arbitrary

theorem ObjectPieces.undeclared {pieces : ObjectPieces compiler (compiler.parts spec)}
    (built : pieces.Compiled) :
    compiler.Undeclared spec (pieces.additional.getD compiler.arbitrary) := by
  have source : compiler.compileAdditional spec.additional = pieces.additional.map .ok :=
    optionally_eq_ok built.additional
  cases extra : pieces.additional with
  | none => exact .inr ⟨by rw [source, extra]; rfl, rfl⟩
  | some values => exact .inl (by rw [source, extra]; rfl)

/-- In a hoisted draw of an object whose declared names match no pattern, a member that matches a
pattern has a value of that pattern, unless its name is required: then it is drawn like an
additional property. -/
theorem matching_member_drawn {generator : Generator}
    (compiled : compiler.compile (.object spec) = .ok generator)
    (distinct : compiler.options.keys.Distinct)
    (properties : ∀ name ∈ Entries.names spec.properties,
      compiler.options.keys.contains name = false)
    (required : ∀ name ∈ spec.required, compiler.options.keys.contains name = false)
    (unmatched : ∀ name ∈ Entries.names spec.properties, ∀ text ∈ Entries.names spec.patterns,
      ∀ pattern, Pattern.read? text = some pattern → pattern.isMatch name = false)
    {bodies : Generator.Bodies} {cursor : Cursor} {value : Json}
    (drawn : (Generator.draw compiler.options bodies
      (.map generator (hoist compiler.options.keys)) cursor).1 = .ok value) :
    ∃ members, value = .obj members ∧ ∀ name inner, (name, inner) ∈ members →
      ∀ text ∈ Entries.names spec.patterns, ∀ pattern, Pattern.read? text = some pattern →
      pattern.isMatch name = true →
        (name ∉ spec.required → ∃ node values raw, (text, node) ∈ spec.patterns ∧
          compiler.compile node = .ok values ∧
          values.Draws compiler.options bodies cursor.depth raw ∧
          inner = hoist compiler.options.keys raw) ∧
        (name ∈ spec.required → ∃ values raw, compiler.Undeclared spec values ∧
          values.Draws compiler.options bodies cursor.depth raw ∧
          inner = hoist compiler.options.keys raw) := by
  obtain ⟨pieces, built, subset, -, members, rfl, -, each⟩ :=
    hoisted_object_draws compiled properties required ⟨cursor.source, drawn⟩
  refine ⟨members, rfl, fun name inner present text listed pattern read found => ?_⟩
  obtain ⟨own, readOwn, matcher⟩ :=
    ObjectParts.mem_matchers built.matchers (names_patterns compiler spec ▸ listed)
  cases readOwn.symm.trans read
  have reserved : name ∈ spec.required → name ∈ pieces.reserved := fun wanted =>
    (ObjectPieces.mem_reserved built).mpr (.inr wanted)
  cases each _ present with
  | field _ stands value =>
    -- The name is not declared, since it matches; so it is a required one.
    rcases ObjectPieces.get?_fields built stands with declared | ⟨-, wanted, rfl⟩
    · have own := Entries.mem_names_of_mem (Entries.mem_of_get?_eq_some declared)
      rw [names_properties] at own
      rw [unmatched name own text listed pattern read] at found
      cases found
    · exact ⟨fun unwanted => absurd wanted unwanted, fun _ =>
        ⟨_, _, ObjectPieces.undeclared built, value, rfl⟩⟩
  | further free clear _ _ =>
    rw [clear _ matcher] at found
    cases found
  | @grouped other values _ free clear source value =>
    have same : text = other := by
      by_contra different
      rw [clear _ matcher different] at found
      cases found
    subst same
    obtain ⟨entry, there, paired⟩ := List.mem_map.mp source
    obtain ⟨rfl, own⟩ := Prod.mk.inj paired
    exact ⟨fun _ => ⟨entry.2, values, _, there, own, value, rfl⟩,
      fun wanted => absurd (reserved wanted) free⟩
  | group same _ => exact absurd same distinct.1

/-- A null under its name, and booleans under keys that match a pattern. -/
def flaggedSpec : ObjectSpec Node := ⟨[("a", .null)], ["a"], .absent, [("^x$", .boolean)], [], []⟩

/-- Only one string matches. -/
def flaggedBody : Generator :=
  .record [("a", .constant .null), (({} : SyntheticKeys).patternProperties, .record
    [("^x$", .dictionary (.pattern ⟨"^x$", .literal {} ['x']⟩) .boolean 4 ["a"] [])])]

theorem compile_flaggedSpec (defaults : compiler.options = {}) :
    compiler.compile (.object flaggedSpec) = .ok flaggedBody := by
  have sets : propertySets [] (["a"] : List String).eraseDups
      ((Entries.names (compiler.compileEntries [("a", .null)])).filter
        fun key => !(["a"] : List String).eraseDups.contains key) = [[]] := propertySets_nil rfl
  show compiler.object _ = _
  dsimp only [Compiler.object]
  rw [sets, defaults]
  rfl

theorem flagged_member_drawn :
    Compiler.compile ⟨{}, {}, .obj [], []⟩ (.object flaggedSpec) = .ok flaggedBody ∧
      ({} : SyntheticKeys).Distinct ∧
      (∀ name ∈ Entries.names flaggedSpec.properties,
        ({} : SyntheticKeys).contains name = false) ∧
      (∀ name ∈ flaggedSpec.required, ({} : SyntheticKeys).contains name = false) ∧
      (Pattern.read? "^x$").any (fun pattern => !pattern.isMatch "a" && pattern.isMatch "x") ∧
      (Generator.draw {} [] (.map flaggedBody (hoist {}))
        ⟨.cycle #[0x50000000, 0x90000000, 0], 0⟩).1 =
          .ok (.obj [("a", .null), ("x", .bool false)]) ∧
      ∃ node values raw, ("^x$", node) ∈ flaggedSpec.patterns ∧
        Compiler.compile ⟨{}, {}, .obj [], []⟩ node = .ok values ∧
        values.Draws {} [] 0 raw ∧ .bool false = hoist {} raw := by
  have compiled : Compiler.compile ⟨{}, {}, .obj [], []⟩ (.object flaggedSpec) = .ok flaggedBody :=
    compile_flaggedSpec rfl
  have distinct : ({} : SyntheticKeys).Distinct := ⟨by decide, by decide, by decide⟩
  have drawn : (Generator.draw {} [] (.map flaggedBody (hoist {}))
      ⟨.cycle #[0x50000000, 0x90000000, 0], 0⟩).1 =
        .ok (.obj [("a", .null), ("x", .bool false)]) := by cbv
  obtain ⟨pattern, read⟩ : ∃ pattern, Pattern.read? "^x$" = some pattern := ⟨_, rfl⟩
  have apart : (Pattern.read? "^x$").any
      (fun pattern => !pattern.isMatch "a" && pattern.isMatch "x") = true := rfl
  obtain ⟨free, found⟩ := Bool.and_eq_true_iff.mp (read ▸ apart :)
  obtain ⟨members, same, each⟩ := matching_member_drawn compiled distinct (by decide) (by decide)
    (by
      intro name listed text stands other readOther
      cases List.mem_singleton.mp listed
      cases List.mem_singleton.mp stands
      cases readOther.symm.trans read
      simpa using free) drawn
  cases same
  have unwanted : "x" ∉ flaggedSpec.required := by decide
  exact ⟨compiled, distinct, by decide, by decide, apart, drawn,
    (each "x" (.bool false) (by simp) "^x$" (by decide) pattern read found).1 unwanted⟩

end Compiler

namespace Sampler

/-- An object whose only name is required and has to be null by its pattern. -/
def nullSchema : Json :=
  .obj [("patternProperties", .obj [("^x$", .obj [("type", .str "null")])]),
    ("required", .strings ["x"]), ("type", .str "object")]

def nullSpec : ObjectSpec Node := ⟨[], ["x"], .absent, [("^x$", .null)], [], []⟩

def nullDocument : Document := ⟨.object nullSpec, [], .obj []⟩

def nullBody : Generator :=
  .record [("x", .arbitrary 2 4 16), (({} : SyntheticKeys).patternProperties, .record
    [("^x$", .dictionary (.pattern ⟨"^x$", .literal {} ['x']⟩) (.constant .null) 4 ["x"] [])])]

def nullSampler : Sampler := ⟨nullBody, ⟨["#"], [nullBody]⟩, {}⟩

theorem compile_nullSchema : compileHoisted nullSchema {} [] = .ok nullSampler.hoisted := by
  have sets : Compiler.propertySets [] (["x"] : List String).eraseDups
      ((Entries.names ((nullDocument.compiler {} []).compileEntries [])).filter
        fun key => !(["x"] : List String).eraseDups.contains key) = [[]] :=
    Compiler.propertySets_nil rfl
  have root : (nullDocument.compiler {} []).compile nullDocument.root = .ok nullBody := by
    show Compiler.object _ _ = _
    dsimp only [Compiler.object]
    rw [sets]
    rfl
  exact compileHoisted_of_root rfl root

/-- The name matches the pattern, but its value is none that the pattern's schema draws. -/
theorem required_member_unmatched :
    Node.classify nullSchema = .ok (.object nullSpec) ∧
      ({} : SyntheticKeys).Distinct ∧ ({} : SyntheticKeys).contains "x" = false ∧
      compileHoisted nullSchema {} [] = .ok nullSampler.hoisted ∧
      (nullSampler.hoisted.draw (.cycle #[0x30000000, 0x90000000, 0])).1 =
        .ok (.obj [("x", .bool true)]) ∧
      (Pattern.read? "^x$").any (fun pattern => pattern.isMatch "x") ∧
      ∀ compiler : Compiler, ∃ values, compiler.compile .null = .ok values ∧
        ∀ raw, values.Draws {} [nullBody] 0 raw → hoist {} raw ≠ .bool true := by
  refine ⟨rfl, ⟨by decide, by decide, by decide⟩, by decide, compile_nullSchema, by cbv, rfl, ?_⟩
  refine fun compiler => ⟨_, rfl, fun raw drawn same => ?_⟩
  rw [drawn.of_constant] at same
  cases same

end Sampler

end SchemaSampler
