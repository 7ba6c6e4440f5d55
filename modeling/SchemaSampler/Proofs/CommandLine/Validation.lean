import SchemaSampler.CommandLine

/-!
# Validated runs

A run that validates draws the same samples from the same source as one that does not. The validator
only says where to stop: at the first sample with errors, which is not printed.

Results:
1. `Splits`: the samples before the first draw that fails.
2. `Prints`: the outcome of printing samples one after the other.
3. `printSamples_prints`: a run prints the samples of its sampler.
4. `Prints.truncated`: what is printed are the samples before the first one with errors.
5. `SampleRequest.validation_truncates`: a run with and without validation.
-/

namespace SchemaSampler

theorem Sampler.length_samples (sampler : Sampler) (source : Source) (count : Nat) :
    (sampler.samples source count).1.length = count := by
  induction count generalizing source with
  | zero => rfl
  | succ count ih =>
    rw [Sampler.samples, List.length_cons, ih]

namespace CommandLine

/-- The results begin with the samples, and then a draw failed unless there are no more. -/
inductive Splits : List (Except SampleError Json) → List Json → Option SampleError → Prop
  | finished : Splits [] [] none
  | failed {error : SampleError} {rest : List (Except SampleError Json)} :
      Splits (.error error :: rest) [] (some error)
  | drawn {sample : Json} {results : List (Except SampleError Json)} {samples : List Json}
      {ending : Option SampleError} : Splits results samples ending →
      Splits (.ok sample :: results) (sample :: samples) ending

theorem exists_splits (results : List (Except SampleError Json)) :
    ∃ samples ending, Splits results samples ending := by
  induction results with
  | nil => exact ⟨[], none, .finished⟩
  | cons result rest ih =>
    obtain ⟨samples, ending, splits⟩ := ih
    cases result with
    | error error => exact ⟨[], some error, .failed⟩
    | ok sample => exact ⟨sample :: samples, ending, .drawn splits⟩

/-- Without a failure all results are samples. -/
theorem Splits.results_eq {results : List (Except SampleError Json)} {samples : List Json}
    (splits : Splits results samples none) : results = samples.map .ok := by
  generalize same : (none : Option SampleError) = ending at splits
  induction splits with
  | finished => rfl
  | failed => cases same
  | drawn _ ih => rw [List.map_cons, ih same]

/-! ## Printing -/

/-- The lines of samples. -/
def lines (pretty : Bool) (samples : List Json) : String :=
  String.join (samples.map fun sample => sampleText pretty sample ++ "\n")

theorem lines_cons (pretty : Bool) (sample : Json) (samples : List Json) :
    lines pretty (sample :: samples) = sampleText pretty sample ++ "\n" ++ lines pretty samples := by
  rw [lines, List.map_cons, String.join_cons]
  rfl

/-- The outcome of printing samples from an index on: one with errors ends the run before it is
printed, and after the last sample the run ends as it is going to. -/
inductive Prints (errors : Json → List String) (pretty : Bool) (ending : Option RunError) :
    (index : Nat) → List Json → Outcome → Prop
  | finished {index : Nat} : Prints errors pretty ending index [] ⟨"", ending⟩
  | valid {index : Nat} {sample : Json} {samples : List Json} {outcome : Outcome} :
      errors sample = [] → Prints errors pretty ending (index + 1) samples outcome →
      Prints errors pretty ending index (sample :: samples)
        (outcome.after (sampleText pretty sample ++ "\n"))
  | invalid {index : Nat} {sample : Json} {samples : List Json} : errors sample ≠ [] →
      Prints errors pretty ending index (sample :: samples)
        ⟨"", some (.invalidSample index ("; ".intercalate (errors sample)))⟩

/-- The samples before the place have no errors and are printed. The one at the place has errors and
is reported with its index, or the place is behind all samples and the run ends as it is going to. -/
structure Truncated (errors : Json → List String) (pretty : Bool) (ending : Option RunError)
    (index : Nat) (samples : List Json) (outcome : Outcome) (place : Nat) : Prop where
  inside : place ≤ samples.length
  valid : ∀ sample ∈ samples.take place, errors sample = []
  printed : outcome.output = lines pretty (samples.take place)
  ends : (∃ sample, samples[place]? = some sample ∧ errors sample ≠ [] ∧
      outcome.error = some (.invalidSample (place + index) ("; ".intercalate (errors sample)))) ∨
    (place = samples.length ∧ outcome.error = ending)

namespace Prints

variable {errors : Json → List String} {pretty : Bool} {ending : Option RunError} {index : Nat}
  {samples : List Json} {outcome : Outcome}

/-- Samples without errors are all printed. -/
theorem outcome_eq (prints : Prints errors pretty ending index samples outcome)
    (valid : ∀ sample ∈ samples, errors sample = []) : outcome = ⟨lines pretty samples, ending⟩ := by
  induction prints with
  | finished => rfl
  | valid _ _ ih =>
    rw [ih fun sample present => valid sample (List.mem_cons_of_mem _ present), lines_cons]
    rfl
  | invalid wrong => exact absurd (valid _ List.mem_cons_self) wrong

/-- Everything before the first sample with errors is printed. -/
theorem truncated (prints : Prints errors pretty ending index samples outcome) :
    ∃ place, Truncated errors pretty ending index samples outcome place := by
  induction prints with
  | finished => exact ⟨0, Nat.le_refl 0, nofun, rfl, .inr ⟨rfl, rfl⟩⟩
  | @valid index sample samples outcome own _ ih =>
    obtain ⟨place, inside, valid, printed, ends⟩ := ih
    refine ⟨place + 1, Nat.succ_le_succ inside, ?_, ?_, ?_⟩
    · rw [List.take_succ_cons, List.forall_mem_cons]
      exact ⟨own, valid⟩
    · rw [List.take_succ_cons, lines_cons, ← printed]
      rfl
    · rcases ends with ⟨wrong, found, faulty, reported⟩ | ⟨last, same⟩
      · refine .inl ⟨wrong, found, faulty, ?_⟩
        rw [Nat.add_assoc, Nat.add_comm 1 index]
        exact reported
      · exact .inr ⟨congrArg Nat.succ last, same⟩
  | @invalid index sample samples wrong =>
    refine ⟨0, Nat.zero_le _, nofun, rfl, .inl ⟨sample, rfl, wrong, ?_⟩⟩
    rw [Nat.zero_add]

end Prints

/-- A run prints the samples of its sampler, whatever the validator says of them. -/
theorem printSamples_prints {sampler : Sampler} (validator : Option Validator) (pretty : Bool)
    {remaining : Nat} (index : Nat) {source : Source} {samples : List Json}
    {ending : Option SampleError}
    (splits : Splits (sampler.samples source remaining).1 samples ending) :
    Prints (sampleErrors validator) pretty (ending.map .generation) index samples
      (printSamples sampler validator pretty remaining index source) := by
  induction remaining generalizing index source samples with
  | zero =>
    cases splits
    exact .finished
  | succ remaining ih =>
    rw [printSamples]
    rw [Sampler.samples] at splits
    generalize sampler.draw source = drawn at splits ⊢
    obtain ⟨result, next⟩ := drawn
    cases splits with
    | failed => exact .finished
    | @drawn sample _ samples _ later =>
      dsimp only
      split
      next valid => exact .valid valid (ih (index + 1) later)
      next wrong => exact .invalid wrong

/-! ## Runs -/

namespace SampleRequest

/-- What a run draws: the schema, its sampler and the source. -/
def prepare (request : SampleRequest) (files : String → Option String) (entropy : Nat) :
    Except RunError (Json × Sampler × Source) :=
  match files request.schema with
  | none => .error (.io request.schema)
  | some text =>
    match Json.read? text with
    | none => .error .json
    | some schema =>
      match request.options files with
      | .error error => .error error
      | .ok options =>
        let source := Source.ofSeed (UInt64.ofNat (request.seed.getD entropy))
        let (keys, source) :=
          if request.randomKeys then SyntheticKeys.random source else (options.keys, source)
        match Sampler.compileHoisted schema { options with keys } [] with
        | .error error => .error (.generation error)
        | .ok sampler => .ok (schema, sampler, source)

/-- A run that is prepared makes its validator and prints. -/
theorem run_eq (request : SampleRequest) (files : String → Option String) (entropy : Nat) :
    request.run files entropy =
      match request.prepare files entropy with
      | .error error => ⟨"", some error⟩
      | .ok (schema, sampler, source) =>
        match request.validator schema with
        | .error error => ⟨"", some error⟩
        | .ok validator => printSamples sampler validator request.pretty request.count 0 source := by
  unfold run prepare
  cases files request.schema with
  | none => rfl
  | some text =>
    dsimp only
    cases Json.read? text with
    | none => rfl
    | some schema =>
      dsimp only
      cases request.options files with
      | error => rfl
      | ok options =>
        dsimp only [sampleSchema]
        generalize (if request.randomKeys then SyntheticKeys.random _ else (_, _)) = keyed
        obtain ⟨keys, source⟩ := keyed
        dsimp only
        cases Sampler.compileHoisted schema { options with keys } [] <;> rfl

/-- Validation has no part in the preparation of a run. -/
theorem prepare_validate (request : SampleRequest) (files : String → Option String) (entropy : Nat)
    (validate : Bool) :
    prepare { request with validate } files entropy = request.prepare files entropy :=
  rfl

/-- A run that cannot be prepared prints nothing, validated or not. One that can prints its samples
up to the first draw that fails. With validation it draws the same samples, and prints those before
the first one with errors; then it reports the index and the errors of this sample if there is one,
and else ends like the other run. Without a validator for the schema nothing is printed. -/
theorem validation_truncates (request : SampleRequest) (files : String → Option String)
    (entropy : Nat) :
    (∀ error, request.prepare files entropy = .error error → ∀ validate,
      run { request with validate } files entropy = ⟨"", some error⟩) ∧
    ∀ schema sampler source, request.prepare files entropy = .ok (schema, sampler, source) →
      ∃ samples ending, Splits (sampler.samples source request.count).1 samples ending ∧
        (ending = none → samples.length = request.count) ∧
        run { request with validate := false } files entropy =
          ⟨lines request.pretty samples, ending.map .generation⟩ ∧
        (Validator.ofSchema? schema = none →
          run { request with validate := true } files entropy = ⟨"", some .schema⟩) ∧
        ∀ validator, Validator.ofSchema? schema = some validator →
          ∃ place, Truncated validator.errors request.pretty
            (run { request with validate := false } files entropy).error 0 samples
            (run { request with validate := true } files entropy) place := by
  refine ⟨fun error unprepared validate => ?_, fun schema sampler source prepared => ?_⟩
  · rw [run_eq, prepare_validate, unprepared]
  obtain ⟨samples, ending, splits⟩ := exists_splits (sampler.samples source request.count).1
  have plain : run { request with validate := false } files entropy =
      ⟨lines request.pretty samples, ending.map .generation⟩ := by
    rw [run_eq, prepare_validate, prepared]
    exact (printSamples_prints none request.pretty 0 splits).outcome_eq fun _ _ => rfl
  refine ⟨samples, ending, splits, ?_, plain, fun missing => ?_, fun validator made => ?_⟩
  · rintro rfl
    have counted := Sampler.length_samples sampler source request.count
    rwa [splits.results_eq, List.length_map] at counted
  · rw [run_eq, prepare_validate, prepared]
    dsimp only [SampleRequest.validator]
    rw [if_pos rfl, missing]
  · have checked : run { request with validate := true } files entropy =
        printSamples sampler (some validator) request.pretty request.count 0 source := by
      rw [run_eq, prepare_validate, prepared]
      dsimp only [SampleRequest.validator]
      rw [if_pos rfl, made]
    rw [checked, plain]
    exact (printSamples_prints (some validator) request.pretty 0 splits).truncated

end SampleRequest

end CommandLine

end SchemaSampler
