import SchemaSampler.Compile
import SchemaSampler.Proofs.Draw.Generators

/-!
# Results of compilation

Compilation is a sequence of steps that may fail. A sequence succeeds with a value exactly when
every step does; the lemmas take a success apart that way. Checked construction changes nothing
about a generator, so what it yields is read off its arguments.
-/

namespace SchemaSampler

namespace Except

variable {α β ε : Type}

theorem bind_eq_ok {step : Except ε α} {next : α → Except ε β} {result : β} :
    step >>= next = .ok result ↔ ∃ value, step = .ok value ∧ next value = .ok result := by
  cases step with
  | error error => exact ⟨nofun, fun ⟨_, absent, _⟩ => nomatch absent⟩
  | ok value => exact ⟨fun same => ⟨value, rfl, same⟩, fun ⟨_, rfl, same⟩ => same⟩

theorem asInvalid_eq_ok {result : Except InvalidReason α} {value : α} :
    asInvalid result = .ok value ↔ result = .ok value := by
  cases result with
  | error reason => exact ⟨nofun, nofun⟩
  | ok other => exact ⟨fun same => congrArg _ (Except.ok.inj same),
      fun same => congrArg _ (Except.ok.inj same)⟩

theorem mapM_eq_ok {f : α → Except ε β} {items : List α} {images : List β}
    (mapped : items.mapM f = .ok images) :
    List.Forall₂ (fun item image => f item = .ok image) items images := by
  induction items generalizing images with
  | nil =>
    cases mapped
    exact .nil
  | cons item rest ih =>
    rw [List.mapM_cons] at mapped
    obtain ⟨image, own, mapped⟩ := bind_eq_ok.mp mapped
    obtain ⟨others, later, same⟩ := bind_eq_ok.mp mapped
    cases same
    exact .cons own (ih later)

theorem entriesMapM_eq_ok {f : α → Except ε β} {entries : Entries α} {images : Entries β}
    (mapped : Entries.mapM f entries = .ok images) :
    (entries.map fun entry => (entry.1, f entry.2)) =
      images.map fun image => (image.1, .ok image.2) := by
  induction entries generalizing images with
  | nil =>
    cases mapped
    rfl
  | cons entry rest ih =>
    obtain ⟨name, value⟩ := entry
    obtain ⟨image, own, mapped⟩ := bind_eq_ok.mp mapped
    obtain ⟨others, later, same⟩ := bind_eq_ok.mp mapped
    cases same
    rw [List.map_cons, List.map_cons, ih later]
    dsimp only
    rw [own]

end Except

namespace Generator

variable {options : Options} {reach : Nat → Json → Prop} {generator : Generator} {drawn : Json}

theorem enumerationOf_yields {label : String} {values : List Json}
    (built : enumerationOf label values = .ok generator)
    (yielded : generator.Yields options reach drawn) : drawn ∈ values := by
  unfold enumerationOf at built
  split at built
  next => cases built
  next =>
    cases built
    exact yielded

theorem choiceOf_eq_choice {label : String} {alternatives : List Generator} {minimal : Option Nat}
    (built : choiceOf label alternatives minimal = .ok generator) :
    ∃ least, generator = .choice label alternatives least := by
  unfold choiceOf at built
  split at built
  next => cases built
  next => exact ⟨_, (Except.ok.inj built).symm⟩

theorem choiceOf_yields {label : String} {alternatives : List Generator} {minimal : Option Nat}
    (built : choiceOf label alternatives minimal = .ok generator)
    (yielded : generator.Yields options reach drawn) :
    ∃ alternative ∈ alternatives, alternative.Yields options reach drawn := by
  obtain ⟨least, rfl⟩ := choiceOf_eq_choice built
  exact yieldsSome_iff.mp yielded

theorem arrayOf_yields {items : Generator} {least most : Nat} {unique : Bool}
    (built : arrayOf items least most unique = .ok generator)
    (yielded : generator.Yields options reach drawn) :
    ∃ values, drawn = .arr values ∧ least ≤ values.length ∧ values.length ≤ most ∧
      ∀ value ∈ values, items.Yields options reach value := by
  unfold arrayOf at built
  split at built
  next => cases built
  next ordered =>
    cases built
    obtain ⟨values, same, above, below, each⟩ := yielded
    exact ⟨values, same, above, by omega, each⟩

/-! ## Scalars -/

theorem integer_yields_number {low high : Int} {multiples : Option Multiples}
    (yielded : (integer low high multiples).Yields options reach drawn) :
    (∃ value, drawn = .int value) ∨ ∃ value, drawn = .float value := by
  cases multiples with
  | none => exact .inl yielded
  | some multiples =>
    obtain ⟨factor, same | same⟩ := yielded
    · exact .inl ⟨_, same⟩
    · exact .inr ⟨_, same⟩

theorem number_yields_number {low high : Binary64} {multiples : Option Multiples}
    (yielded : (number low high multiples).Yields options reach drawn) :
    (∃ value, drawn = .int value) ∨ ∃ value, drawn = .float value := by
  cases multiples with
  | none => exact .inr yielded
  | some multiples =>
    obtain ⟨factor, same | same⟩ := yielded
    · exact .inl ⟨_, same⟩
    · exact .inr ⟨_, same⟩

theorem integerOf_yields {bounds : NumericBounds} (built : integerOf bounds = .ok generator)
    (yielded : generator.Yields options reach drawn) :
    (∃ value, drawn = .int value) ∨ ∃ value, drawn = .float value := by
  obtain ⟨⟨low, high⟩, -, built⟩ := Except.bind_eq_ok.mp built
  dsimp only at built
  split at built
  next =>
    cases built
    exact integer_yields_number yielded
  next =>
    obtain ⟨whole, -, built⟩ := Except.bind_eq_ok.mp built
    obtain ⟨multiples, -, built⟩ := Except.bind_eq_ok.mp built
    cases built
    exact integer_yields_number yielded.1

theorem numberOf_yields {bounds : NumericBounds} (built : numberOf bounds = .ok generator)
    (yielded : generator.Yields options reach drawn) :
    (∃ value, drawn = .int value) ∨ ∃ value, drawn = .float value := by
  obtain ⟨⟨low, high⟩, -, built⟩ := Except.bind_eq_ok.mp built
  dsimp only at built
  split at built
  next =>
    cases built
    exact number_yields_number yielded
  next =>
    obtain ⟨multiples, -, built⟩ := Except.bind_eq_ok.mp built
    cases built
    exact number_yields_number yielded.1

theorem patternOf_eq_ok {text : String} {maxRepeat : Nat} :
    patternOf text maxRepeat = .ok generator ↔
      ∃ synthesizer, Synthesizer.ofPattern? text maxRepeat = some synthesizer ∧
        generator = .pattern synthesizer := by
  unfold patternOf
  cases Synthesizer.ofPattern? text maxRepeat with
  | none => exact ⟨nofun, fun ⟨_, absent, _⟩ => nomatch absent⟩
  | some synthesizer =>
    exact ⟨fun built => ⟨synthesizer, rfl, (Except.ok.inj built).symm⟩,
      fun ⟨_, same, built⟩ => built ▸ congrArg _ (congrArg _ (Option.some.inj same))⟩

theorem patternOf_yields {text : String} {maxRepeat : Nat}
    (built : patternOf text maxRepeat = .ok generator)
    (yielded : generator.Yields options reach drawn) : ∃ text, drawn = .str text := by
  obtain ⟨_, -, rfl⟩ := patternOf_eq_ok.mp built
  exact yielded

theorem catalogOf_yields {provider : String} {against : Options}
    (built : catalogOf provider against = .ok generator)
    (yielded : generator.Yields options reach drawn) : ∃ text, drawn = .str text := by
  obtain ⟨values, -, built⟩ := Except.bind_eq_ok.mp built
  obtain ⟨text, -, same⟩ := List.mem_map.mp (enumerationOf_yields built yielded)
  exact ⟨text, same.symm⟩

end Generator

namespace Compiler

theorem text_yields {compiler : Compiler} {spec : TextSpec} {generator : Generator}
    {options : Options} {reach : Nat → Json → Prop} {drawn : Json}
    (built : compiler.text spec = .ok generator)
    (yielded : generator.Yields options reach drawn) : ∃ text, drawn = .str text := by
  unfold text at built
  split at built
  next => exact Generator.patternOf_yields built yielded
  next => exact Generator.catalogOf_yields built yielded
  next =>
    cases built
    obtain ⟨text, same, -⟩ := yielded
    exact ⟨text, same⟩

theorem compileAll_eq_ok {compiler : Compiler} {nodes : List Node} {generators : List Generator}
    (compiled : compiler.compileAll nodes = .ok generators) :
    List.Forall₂ (fun node generator => compiler.compile node = .ok generator) nodes generators := by
  induction nodes generalizing generators with
  | nil =>
    cases compiled
    exact .nil
  | cons node rest ih =>
    rw [compileAll] at compiled
    split at compiled
    next own later =>
      cases compiled
      exact .cons own (ih later)
    next => cases compiled
    next => cases compiled

theorem compileEntries_eq_map (compiler : Compiler) (entries : List (String × Node)) :
    compiler.compileEntries entries = entries.map fun entry => (entry.1, compiler.compile entry.2) := by
  induction entries with
  | nil => rfl
  | cons entry rest ih => rw [compileEntries, ih, List.map_cons]

end Compiler

/-! ## Documents -/

namespace Document

/-- A document consists of the classified root and the classified definitions. -/
theorem parse_eq_ok {schema : Json} {document : Document} (parsed : parse schema = .ok document) :
    Node.classify schema = .ok document.root ∧ ∃ definitions, definitionsOf schema = .obj definitions ∧
      (definitions.map fun entry => (entry.1, Node.classify entry.2)) =
        document.definitions.map fun entry => (entry.1, .ok entry.2) := by
  obtain ⟨root, classified, parsed⟩ := Except.bind_eq_ok.mp parsed
  split at parsed
  next members given =>
    obtain ⟨definitions, mapped, same⟩ := Except.bind_eq_ok.mp parsed
    cases same
    exact ⟨classified, members, given, Except.entriesMapM_eq_ok mapped⟩
  next => cases parsed

theorem source_of_parse {schema : Json} {document : Document}
    (parsed : parse schema = .ok document) : document.source = definitionsOf schema := by
  obtain ⟨root, -, parsed⟩ := Except.bind_eq_ok.mp parsed
  split at parsed
  next members given =>
    obtain ⟨definitions, -, same⟩ := Except.bind_eq_ok.mp parsed
    cases same
    exact given.symm
  next => cases parsed

end Document

end SchemaSampler
