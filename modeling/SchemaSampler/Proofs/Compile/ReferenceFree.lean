import SchemaSampler.Proofs.Compile.KeySets
import SchemaSampler.Proofs.Compile.References

/-!
# Nodes without references

The test for references looks below a node wherever an inner schema can stand, so a node that passes
as free of them has no reference among its parts. Compilation makes references from reference nodes
alone; what it makes of such a node stands by itself. No definition takes part in its draws, which
therefore end without a reference at any depth. Unions rely on this: the alternative that they fall
back on when recursion winds down is such a node.

Results:
1. `Node.not_part_reference`: the test covers all parts of a node.
2. `Generator.standsAlone_of_not_refers`: draws of a generator without references.
3. `Compiler.reference_free_compiled`: nodes without references, and the minimal alternatives of
   unions.
-/

namespace SchemaSampler

/-! ## The test for references -/

namespace Node

theorem anyReferences_iff {nodes : List Node} :
    anyReferences nodes = true ↔ ∃ node ∈ nodes, node.hasReferences = true := by
  induction nodes with
  | nil => simp [anyReferences]
  | cons node rest ih => simp [anyReferences, ih]

theorem entryReferences_iff {entries : List (String × Node)} :
    entryReferences entries = true ↔ ∃ entry ∈ entries, entry.2.hasReferences = true := by
  induction entries with
  | nil => simp [entryReferences]
  | cons entry rest ih => simp [entryReferences, ih]

/-- A node has the references of its inner nodes. -/
theorem Inside.hasReferences {inner node : Node} (inside : inner.Inside node)
    (refers : inner.hasReferences = true) : node.hasReferences = true := by
  cases inside with
  | items => exact refers
  | component present | anyOf present | oneOf present | allOf present =>
    exact anyReferences_iff.mpr ⟨inner, present, refers⟩
  | @property spec entry present =>
    have declared := entryReferences_iff.mpr ⟨entry, present, refers⟩
    obtain ⟨properties, required, additional, patterns, dependencies, further⟩ := spec
    simp [Node.hasReferences, specReferences, declared]
  | @patterned spec entry present =>
    have patterned := entryReferences_iff.mpr ⟨entry, present, refers⟩
    obtain ⟨properties, required, additional, patterns, dependencies, further⟩ := spec
    simp [Node.hasReferences, specReferences, patterned]
  | @additional spec _ same =>
    obtain ⟨properties, required, additional, patterns, dependencies, further⟩ := spec
    cases same
    simp [Node.hasReferences, specReferences, additionalReferences, refers]

theorem Part.hasReferences {part node : Node} (below : part.Part node)
    (refers : part.hasReferences = true) : node.hasReferences = true := by
  induction below with
  | refl => exact refers
  | tail _ inside ih => exact inside.hasReferences ih

/-- A node that passes as free of references has none among its parts. -/
theorem not_part_reference {node : Node} (free : node.hasReferences = false) (pointer : String) :
    ¬ Part (.reference pointer) node := by
  intro part
  have refers := part.hasReferences rfl
  rw [free] at refers
  cases refers

end Node

/-! ## Generators without references -/

namespace Generator

/-- No reference stands in the generator. Its draws are the same whatever the definitions are, and
neither meet the depth limit nor miss a definition, at whatever depth they start. -/
structure StandsAlone (generator : Generator) : Prop where
  not_refers : ∀ pointer slot, ¬ generator.Refers pointer slot
  draw_eq : ∀ options bodies others cursor,
    draw options bodies generator cursor = draw options others generator cursor
  ne_recursionLimit : ∀ options bodies cursor limit,
    (draw options bodies generator cursor).1 ≠ .error (.recursionLimit limit)
  ne_unboundDefinition : ∀ options bodies cursor name,
    (draw options bodies generator cursor).1 ≠ .error (.unboundDefinition name)

variable {generator : Generator}

/-- Without references, expansions take no part in a draw. -/
theorem drawWith_eq_of_not_refers (alone : ∀ pointer slot, ¬ generator.Refers pointer slot)
    (options : Options) (expand twin : Nat → Draw Json) :
    generator.drawWith options expand = generator.drawWith options twin :=
  drawWith_congr fun pointer slot refers => absurd refers (alone pointer slot)

theorem draw_error_isOwn (alone : ∀ pointer slot, ¬ generator.Refers pointer slot)
    {options : Options} {bodies : Bodies} {cursor : Cursor} {error : SampleError}
    (failed : (draw options bodies generator cursor).1 = .error error) : error.IsOwn := by
  -- A defect is an error of a generator's own, so it may stand for the expansions.
  have meets : Draw.Meets cursor.depth SampleError.IsOwn
      (generator.Yields options fun _ _ => False)
      (generator.drawWith options fun _ => Draw.fail (.defect .depthBelowZero))
      (generator.drawWith options fun _ => Draw.fail (.defect .depthBelowZero)) :=
    drawWith_meets (fun _ own => own) fun _ _ => Draw.fail_meets trivial
  rw [Generator.draw_eq, drawWith_eq_of_not_refers alone options _ _] at failed
  exact meets.allows failed

theorem standsAlone_of_not_refers (alone : ∀ pointer slot, ¬ generator.Refers pointer slot) :
    generator.StandsAlone where
  not_refers := alone
  draw_eq options bodies others cursor := by
    rw [Generator.draw_eq, Generator.draw_eq, drawWith_eq_of_not_refers alone options _ _]
  ne_recursionLimit _ _ _ limit failed :=
    (draw_error_isOwn alone failed).ne_recursionLimit limit rfl
  ne_unboundDefinition _ _ _ name failed :=
    (draw_error_isOwn alone failed).ne_unboundDefinition name rfl

end Generator

namespace Compiler

variable {compiler : Compiler} {generator : Generator}

/-! ## Compilation -/

/-- No matter what pointers resolve to, a node without references compiles to one generator. -/
theorem compile_reference_free (closures : compiler.registry.Closures) {node : Node}
    (free : node.hasReferences = false) (compiled : compiler.compile node = .ok generator)
    (binder : Binder) :
    Compiler.compile { compiler with binder } node = .ok generator ∧
      ∀ pointer slot, ¬ generator.Refers pointer slot := by
  have agree : Except.Agree (Renumbers (fun slot => slot) fun _ _ => False)
      (compiler.compile node) (Compiler.compile { compiler with binder } node) :=
    compile_renumber rfl rfl closures
      (fun pointer part => absurd part (Node.not_part_reference free pointer)) fun _ _ _ => rfl
  rw [compiled] at agree
  generalize Compiler.compile { compiler with binder } node = twin at agree
  cases agree with
  | ok renumbers =>
    have alone : ∀ pointer slot, ¬ generator.Refers pointer slot := renumbers.refers
    have same : generator.renumber (fun slot => slot) = generator :=
      Generator.renumber_eq_self fun _ _ _ => rfl
    exact ⟨congrArg _ (renumbers.renumbered.trans same), alone⟩

/-! ## Unions -/

/-- The minimal alternative of a union, if it has one, is what the first member without references
compiles to. -/
structure MinimalFor (compiler : Compiler) (members : List Node) (alternatives : List Generator)
    (minimal : Option Nat) : Prop where
  none_iff : minimal = none ↔ ∀ member ∈ members, member.hasReferences = true
  first_free : ∀ place, minimal = some place → ∃ member alternative,
    members[place]? = some member ∧ alternatives[place]? = some alternative ∧
    member.hasReferences = false ∧
    (∀ earlier < place, ∀ other, members[earlier]? = some other → other.hasReferences = true) ∧
    compiler.compile member = .ok alternative ∧ alternative.StandsAlone

theorem minimalFor_minimalPlace (closures : compiler.registry.Closures) {members : List Node}
    {alternatives : List Generator} (mapped : members.mapM compiler.compile = .ok alternatives) :
    MinimalFor compiler members alternatives (minimalPlace members) := by
  have each := Except.mapM_eq_ok mapped
  constructor
  · rw [minimalPlace, List.findIdx?_eq_none_iff]
    simp
  · intro place found
    obtain ⟨below, free, before⟩ := List.findIdx?_eq_some_iff_getElem.mp found
    have member : members[place]? = some members[place] := List.getElem?_eq_getElem below
    obtain ⟨alternative, there, own⟩ := Generator.exists_left_of_getElem? each.flip member
    have unreferring : members[place].hasReferences = false := by simpa using free
    have alone := (compile_reference_free closures unreferring own compiler.binder).2
    refine ⟨members[place], alternative, member, there, unreferring, ?_, own,
      Generator.standsAlone_of_not_refers alone⟩
    intro earlier less other stands
    obtain ⟨_, rfl⟩ := List.getElem?_eq_some_iff.mp stands
    simpa using before earlier less

theorem choiceOf_eq_ok {label : String} {alternatives : List Generator} {minimal : Option Nat}
    (inside : ∀ place, minimal = some place → place < alternatives.length)
    (built : Generator.choiceOf label alternatives minimal = .ok generator) :
    generator = .choice label alternatives minimal := by
  have kept : minimal.filter (fun place => place < alternatives.length) = minimal := by
    cases minimal with
    | none => rfl
    | some place => exact Option.filter_some_pos (decide_eq_true (inside place rfl))
  unfold Generator.choiceOf at built
  split at built
  next => cases built
  next =>
    cases built
    rw [kept]

/-- The generator is a choice among what the members compile to. Winding down it draws what its
minimal alternative draws. -/
def FallsBack (compiler : Compiler) (members : List Node) (generator : Generator) : Prop :=
  ∃ label alternatives minimal, generator = .choice label alternatives minimal ∧
    MinimalFor compiler members alternatives minimal ∧
    ∀ place alternative, minimal = some place → alternatives[place]? = some alternative →
      ∀ options bodies cursor, options.limits.windDownDepth ≤ cursor.depth →
        Generator.draw options bodies generator cursor =
          Generator.draw options bodies alternative cursor

theorem alternative_fallsBack (closures : compiler.registry.Closures) {label : String}
    {members : List Node} {alternatives : List Generator}
    (mapped : members.mapM compiler.compile = .ok alternatives)
    (built : alternative label members alternatives = .ok generator) :
    FallsBack compiler members generator := by
  have minimalFor := minimalFor_minimalPlace closures mapped
  have inside : ∀ place, minimalPlace members = some place → place < alternatives.length := by
    intro place found
    obtain ⟨_, _, -, there, -⟩ := minimalFor.first_free place found
    exact (List.getElem?_eq_some_iff.mp there).1
  have chosen := choiceOf_eq_ok inside (Except.asInvalid_eq_ok.mp built)
  refine ⟨label, alternatives, minimalPlace members, chosen, minimalFor, ?_⟩
  intro place alternative found there options bodies cursor deep
  rw [chosen, found]
  exact Generator.draw_choice_of_windingDown there deep bodies

/-- A node without references compiles, against whatever binder, to one generator without
references: its draws never ask for a definition. A union that has such a member falls back on the
first one when recursion winds down, so its draws ask for no definition then. -/
theorem reference_free_compiled (closures : compiler.registry.Closures) :
    (∀ node generator, node.hasReferences = false → compiler.compile node = .ok generator →
      generator.StandsAlone ∧
      ∀ binder, Compiler.compile { compiler with binder } node = .ok generator) ∧
    ∀ members generator, compiler.compile (.anyOf members) = .ok generator ∨
      compiler.compile (.oneOf members) = .ok generator → FallsBack compiler members generator := by
  constructor
  · intro node generator free compiled
    have each := compile_reference_free closures free compiled
    exact ⟨Generator.standsAlone_of_not_refers (each compiler.binder).2, fun binder =>
      (each binder).1⟩
  · rintro members generator (compiled | compiled)
    · rw [compile_anyOf] at compiled
      obtain ⟨alternatives, mapped, built⟩ := Except.bind_eq_ok.mp compiled
      exact alternative_fallsBack closures mapped built
    · rw [compile_oneOf] at compiled
      obtain ⟨alternatives, mapped, built⟩ := Except.bind_eq_ok.mp compiled
      exact alternative_fallsBack closures mapped built

/-! A list that leads back to the document, or an object with inner schemas in every place. -/

def wordRegistry : Registry := [("word", .closure (pure (.str "w")))]

def wordSpec : ObjectSpec Node :=
  ⟨[("a", .custom "word")], ["a", "b"], .schema (.tuple [.null]), [("^x$", .boolean)], [], []⟩

def wordBody : Generator :=
  .record [("a", .closure (pure (.str "w"))), ("b", .tuple [.constant .null]),
    (({} : SyntheticKeys).additionalProperties,
      .dictionary (.text 16) (.tuple [.constant .null]) 4 ["a", "b"]
        (Pattern.read? "^x$").toList),
    (({} : SyntheticKeys).patternProperties, .record
      [("^x$", .dictionary (.pattern ⟨"^x$", .literal {} ['x']⟩) .boolean 4 ["a", "b"] [])])]

/-- The union needs the definition, its second member does not. -/
def wordUnion : List Node := [.list (.reference "#/definitions/c") {}, .object wordSpec]

def wordCompiler (binder : Binder) : Compiler := ⟨binder, {}, .obj [], wordRegistry⟩

def wordBinder : Binder := (({} : Binder).register "c").2

def wordChoice : Generator := .choice "structural.any_of"
  [.array (.reference "#/definitions/c" 1) 0 8 false, wordBody] (some 1)

theorem compile_wordSpec (binder : Binder) :
    (wordCompiler binder).compile (.object wordSpec) = .ok wordBody := by
  have sets : propertySets [] (["a", "b"] : List String).eraseDups
      ((Entries.names ((wordCompiler binder).compileEntries [("a", .custom "word")])).filter
        fun key => !(["a", "b"] : List String).eraseDups.contains key) = [[]] :=
    propertySets_nil rfl
  show Compiler.object _ _ = _
  dsimp only [Compiler.object]
  rw [sets]
  rfl

theorem compile_wordUnion :
    (wordCompiler wordBinder).compile (.anyOf wordUnion) = .ok wordChoice := by
  have list : (wordCompiler wordBinder).compile (.list (.reference "#/definitions/c") {}) =
      .ok (.array (.reference "#/definitions/c" 1) 0 8 false) := rfl
  rw [compile_anyOf, wordUnion, List.mapM_cons, List.mapM_cons, list, compile_wordSpec]
  rfl

/-- Deep down the union draws the object, whether or not there is a definition to draw from. -/
theorem word_reference_free :
    wordRegistry.Closures ∧ (Node.object wordSpec).hasReferences = false ∧
      (wordCompiler wordBinder).compile (.object wordSpec) = .ok wordBody ∧
      wordBody.StandsAlone ∧ (wordCompiler {}).compile (.object wordSpec) = .ok wordBody ∧
      (wordCompiler wordBinder).compile (.anyOf wordUnion) = .ok wordChoice ∧
      ∀ bodies source, Generator.draw {} bodies wordChoice ⟨source, 100⟩ =
        Generator.draw {} [] wordBody ⟨source, 100⟩ := by
  have closures : wordRegistry.Closures := by
    intro entry present
    rw [List.mem_singleton.mp present]
    exact ⟨_, rfl⟩
  obtain ⟨nodes, unions⟩ := @reference_free_compiled (wordCompiler wordBinder) closures
  obtain ⟨alone, everywhere⟩ := nodes (.object wordSpec) wordBody rfl (compile_wordSpec _)
  obtain ⟨_, _, _, same, -, falls⟩ := unions wordUnion wordChoice (.inl compile_wordUnion)
  cases same
  refine ⟨closures, rfl, compile_wordSpec _, alone, everywhere {}, compile_wordUnion, ?_⟩
  intro bodies source
  have deep : ({} : Options).limits.windDownDepth ≤ 100 := by decide
  rw [falls 1 wordBody rfl rfl {} bodies ⟨source, 100⟩ deep]
  exact alone.draw_eq {} bodies [] ⟨source, 100⟩

end Compiler

end SchemaSampler
