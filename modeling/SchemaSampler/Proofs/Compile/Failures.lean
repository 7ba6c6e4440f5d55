import SchemaSampler.Proofs.Compile.Parts

/-!
# Where compilation fails

Compilation stops at the first step that fails and passes its error on. So an error of a compound
node is that of an inner node, or that of one of the few checks which the node makes itself.

Results:
1. `Except.bind_eq_error`, `Except.mapM_eq_error`: the error of a sequence of steps.
2. `Compiler.object_eq_error`: what an object fails for.
-/

namespace SchemaSampler

namespace Except

variable {α β ε : Type}

theorem bind_eq_error {step : Except ε α} {next : α → Except ε β} {error : ε} :
    step >>= next = .error error ↔
      step = .error error ∨ ∃ value, step = .ok value ∧ next value = .error error := by
  cases step with
  | error other =>
    exact ⟨fun same => .inl (congrArg _ (Except.error.inj same)), fun either => either.elim
      (fun same => congrArg _ (Except.error.inj same)) fun ⟨_, absent, _⟩ => nomatch absent⟩
  | ok value =>
    exact ⟨fun failed => .inr ⟨value, rfl, failed⟩, fun either => either.elim nofun
      fun ⟨_, same, failed⟩ => Except.ok.inj same ▸ failed⟩

theorem asInvalid_eq_error {result : Except InvalidReason α} {error : SampleError} :
    asInvalid result = .error error ↔
      ∃ reason, result = .error reason ∧ error = .invalidSchema reason := by
  cases result with
  | ok value => exact ⟨nofun, fun ⟨_, absent, _⟩ => nomatch absent⟩
  | error reason =>
    exact ⟨fun same => ⟨reason, rfl, (Except.error.inj same).symm⟩,
      fun ⟨_, same, failed⟩ => by rw [failed, Except.error.inj same]; rfl⟩

theorem mapM_eq_error {f : α → Except ε β} {items : List α} {error : ε}
    (failed : items.mapM f = .error error) : ∃ item ∈ items, f item = .error error := by
  induction items with
  | nil => cases failed
  | cons item rest ih =>
    rw [List.mapM_cons] at failed
    rcases bind_eq_error.mp failed with own | ⟨_, -, failed⟩
    · exact ⟨item, List.mem_cons_self, own⟩
    · rcases bind_eq_error.mp failed with later | ⟨_, -, absent⟩
      · obtain ⟨other, present, own⟩ := ih later
        exact ⟨other, List.mem_cons_of_mem _ present, own⟩
      · cases absent

theorem entriesMapM_eq_error {f : α → Except ε β} {entries : Entries α} {error : ε}
    (failed : Entries.mapM f entries = .error error) :
    ∃ entry ∈ entries, f entry.2 = .error error := by
  induction entries with
  | nil => cases failed
  | cons entry rest ih =>
    rcases bind_eq_error.mp failed with own | ⟨_, -, failed⟩
    · exact ⟨entry, List.mem_cons_self, own⟩
    · rcases bind_eq_error.mp failed with later | ⟨_, -, absent⟩
      · obtain ⟨other, present, own⟩ := ih later
        exact ⟨other, List.mem_cons_of_mem _ present, own⟩
      · cases absent

end Except

namespace Generator

theorem patternOf_eq_error {text : String} {maxRepeat : Nat} {reason : InvalidReason} :
    patternOf text maxRepeat = .error reason ↔
      Synthesizer.ofPattern? text maxRepeat = none ∧ reason = .badPattern text := by
  unfold patternOf
  cases Synthesizer.ofPattern? text maxRepeat with
  | some synthesizer => exact ⟨nofun, fun ⟨absent, _⟩ => nomatch absent⟩
  | none => exact ⟨fun failed => ⟨rfl, (Except.error.inj failed).symm⟩,
      fun ⟨_, same⟩ => congrArg _ same.symm⟩

theorem choiceOf_eq_error {label : String} {alternatives : List Generator} {minimal : Option Nat}
    {reason : InvalidReason} (failed : choiceOf label alternatives minimal = .error reason) :
    alternatives = [] := by
  unfold choiceOf at failed
  split at failed
  next none => exact List.isEmpty_iff.mp none
  next => cases failed

end Generator

namespace Compiler

/-! ## Objects -/

theorem optionally_eq_error {additional : Option Compiled} {error : SampleError}
    (failed : optionally additional = .error error) : additional = some (.error error) := by
  unfold optionally at failed
  split at failed
  next => cases failed
  next => cases failed
  next => rw [Except.error.inj failed]

theorem allCompiled_eq_error {entries : List (String × Compiled)} {error : SampleError}
    (failed : allCompiled entries = .error error) :
    ∃ entry ∈ entries, entry.2 = .error error := by
  induction entries with
  | nil => cases failed
  | cons entry rest ih =>
    obtain ⟨key, result⟩ := entry
    rcases Except.bind_eq_error.mp failed with own | ⟨_, -, failed⟩
    · exact ⟨(key, result), List.mem_cons_self, own⟩
    · rcases Except.bind_eq_error.mp failed with later | ⟨_, -, absent⟩
      · obtain ⟨other, present, own⟩ := ih later
        exact ⟨other, List.mem_cons_of_mem _ present, own⟩
      · cases absent

namespace ObjectParts

/-- What an object with a set of names fails for. -/
inductive Fails (maxRepeat : Nat) (parts : ObjectParts) : SampleError → Prop
  | additional {error : SampleError} : parts.additional = some (.error error) →
      Fails maxRepeat parts error
  | property {entry : String × Compiled} {error : SampleError} : entry ∈ parts.properties →
      entry.2 = .error error → Fails maxRepeat parts error
  /-- A pattern cannot be matched. -/
  | matcher {text : String} : text ∈ Entries.names parts.patterns → Pattern.read? text = none →
      Fails maxRepeat parts (.invalidSchema (.badPattern text))
  /-- No strings can be synthesized from a pattern. -/
  | synthesizer {text : String} : text ∈ Entries.names parts.patterns →
      Synthesizer.ofPattern? text maxRepeat = none →
      Fails maxRepeat parts (.invalidSchema (.badPattern text))
  | patterned {entry : String × Compiled} {error : SampleError} : entry ∈ parts.patterns →
      entry.2 = .error error → Fails maxRepeat parts error

theorem matchers_eq_error {patterns : List (String × Compiled)} {error : SampleError}
    (failed : matchers patterns = .error error) :
    ∃ text ∈ Entries.names patterns, Pattern.read? text = none ∧
      error = .invalidSchema (.badPattern text) := by
  induction patterns with
  | nil => cases failed
  | cons first rest ih =>
    obtain ⟨text, compiled⟩ := first
    rw [matchers] at failed
    split at failed
    next =>
      rcases Except.bind_eq_error.mp failed with later | ⟨_, -, absent⟩
      · obtain ⟨other, present, own⟩ := ih later
        exact ⟨other, List.mem_cons_of_mem _ present, own⟩
      · cases absent
    next unread =>
      cases failed
      exact ⟨text, List.mem_cons_self, unread, rfl⟩

theorem groups_eq_error {options : Options} {reserved : List String}
    {matchers : List (String × Pattern)} {patterns : List (String × Compiled)} {error : SampleError}
    (failed : groups options reserved matchers patterns = .error error) :
    (∃ text ∈ Entries.names patterns,
        Synthesizer.ofPattern? text options.limits.maxRepeat = none ∧
        error = .invalidSchema (.badPattern text)) ∨
      ∃ entry ∈ patterns, entry.2 = .error error := by
  induction patterns with
  | nil => cases failed
  | cons first rest ih =>
    obtain ⟨text, compiled⟩ := first
    rcases Except.bind_eq_error.mp failed with keys | ⟨_, -, failed⟩
    · obtain ⟨reason, own, rfl⟩ := Except.asInvalid_eq_error.mp keys
      obtain ⟨missing, rfl⟩ := Generator.patternOf_eq_error.mp own
      exact .inl ⟨text, List.mem_cons_self, missing, rfl⟩
    rcases Except.bind_eq_error.mp failed with own | ⟨_, -, failed⟩
    · exact .inr ⟨(text, compiled), List.mem_cons_self, own⟩
    rcases Except.bind_eq_error.mp failed with later | ⟨_, -, absent⟩
    · rcases ih later with ⟨other, present, own⟩ | ⟨other, present, own⟩
      · exact .inl ⟨other, List.mem_cons_of_mem _ present, own⟩
      · exact .inr ⟨other, List.mem_cons_of_mem _ present, own⟩
    · cases absent

end ObjectParts

variable {compiler : Compiler} {parts : ObjectParts} {error : SampleError}

/-- Without a set of names nothing else of an object matters. -/
theorem object_of_sets_nil (none : parts.sets = []) :
    compiler.object parts = .error (noPropertySet parts.required parts.dependencies) := by
  unfold object
  exact if_pos (List.isEmpty_iff.mpr none)

/-- An object fails because it has no set of names, or else because of its parts. -/
theorem object_eq_error (failed : compiler.object parts = .error error) :
    parts.sets = [] ∧ error = noPropertySet parts.required parts.dependencies ∨
      parts.sets ≠ [] ∧ parts.Fails compiler.options.limits.maxRepeat error := by
  by_cases none : parts.sets = []
  · rw [object_of_sets_nil none] at failed
    exact .inl ⟨none, (Except.error.inj failed).symm⟩
  refine .inr ⟨none, ?_⟩
  unfold object at failed
  dsimp only at failed
  split at failed
  next empty => exact absurd (List.isEmpty_iff.mp empty) none
  next =>
    rcases Except.bind_eq_error.mp failed with own | ⟨_, -, failed⟩
    · exact .additional (optionally_eq_error own)
    rcases Except.bind_eq_error.mp failed with own | ⟨_, -, failed⟩
    · obtain ⟨entry, present, own⟩ := allCompiled_eq_error own
      exact .property present own
    rcases Except.bind_eq_error.mp failed with own | ⟨_, -, failed⟩
    · obtain ⟨text, present, unread, rfl⟩ := ObjectParts.matchers_eq_error own
      exact .matcher present unread
    rcases Except.bind_eq_error.mp failed with own | ⟨_, -, failed⟩
    · rcases ObjectParts.groups_eq_error own with ⟨text, present, missing, rfl⟩ | ⟨entry, present, own⟩
      · exact .synthesizer present missing
      · exact .patterned present own
    -- What is left is the choice, which has an alternative for every set.
    split at failed
    next => cases failed
    next =>
      obtain ⟨reason, empty, -⟩ := Except.asInvalid_eq_error.mp failed
      exact absurd (List.map_eq_nil_iff.mp (Generator.choiceOf_eq_error empty)) none

theorem compileAdditional_eq_error {additional : Additional Node}
    (failed : compiler.compileAdditional additional = some (.error error)) :
    ∃ node, additional = .schema node ∧ compiler.compile node = .error error := by
  cases additional with
  | absent => cases failed
  | forbidden => cases failed
  | anything => cases failed
  | schema node => exact ⟨node, rfl, Option.some.inj failed⟩

/-- An object schema with a set of names fails for an inner schema or a pattern. -/
theorem inside_of_fails {spec : ObjectSpec Node}
    (fails : (compiler.parts spec).Fails compiler.options.limits.maxRepeat error) :
    (∃ inner, inner.Inside (.object spec) ∧ compiler.compile inner = .error error) ∨
      ∃ text ∈ Entries.names spec.patterns, error = .invalidSchema (.badPattern text) ∧
        (Pattern.read? text = none ∨
          Synthesizer.ofPattern? text compiler.options.limits.maxRepeat = none) := by
  cases fails with
  | additional failed =>
    obtain ⟨node, same, own⟩ := compileAdditional_eq_error failed
    exact .inl ⟨node, .additional same, own⟩
  | property present failed =>
    obtain ⟨entry, listed, rfl⟩ := List.mem_map.mp present
    exact .inl ⟨entry.2, .property listed, failed⟩
  | patterned present failed =>
    obtain ⟨entry, listed, rfl⟩ := List.mem_map.mp present
    exact .inl ⟨entry.2, .patterned listed, failed⟩
  | matcher present unread =>
    exact .inr ⟨_, names_patterns compiler spec ▸ present, rfl, .inl unread⟩
  | synthesizer present missing =>
    exact .inr ⟨_, names_patterns compiler spec ▸ present, rfl, .inr missing⟩

end Compiler

end SchemaSampler
