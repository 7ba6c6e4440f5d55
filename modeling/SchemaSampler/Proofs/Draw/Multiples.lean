import SchemaSampler.Proofs.Draw.Streams
import SchemaSampler.Proofs.Compile.Checked
import SchemaSampler.Proofs.Json.Equality

/-!
# Drawn multiples

A number with a step is drawn by trial: a multiple of a step is the candidate, a filter rejects what
rounding made of it. An integer node steps by a whole multiple of its step, and its filter checks
the step that was declared.

Results:
1. `Generator.filter_samples`: a filter takes the first candidate that it admits.
2. `Generator.integerOf_eq_ok`, `Generator.numberOf_eq_ok`: the filters of nodes with a step.
3. `Generator.multiples_sampled`: what is drawn from them.
-/

namespace SchemaSampler

open Draw

/-! ## What the filters admit -/

/-- The value lies between two limits and is a multiple of a step, as a float. -/
def MultipleBetween (low high step : Binary64) (value : Json) : Prop :=
  ∃ x, value.toFloat? = some x ∧ low.le x = true ∧ x.le high = true ∧ isMultiple x step = true

/-- The value is a whole number, also where it is written as a float. -/
def WholeNumber (value : Json) : Prop := ∃ x, value.toFloat? = some x ∧ x.isWhole = true

namespace Generator

theorem floatPasses_iff {test : Binary64 → Bool} {value : Json} :
    floatPasses test value = true ↔ ∃ x, value.toFloat? = some x ∧ test x = true := by
  unfold floatPasses
  cases value.toFloat? <;> simp

/-- The filter of a number node. -/
def admitsMultiple (low high step : Binary64) : Json → Bool :=
  floatPasses fun x => low.le x && x.le high && isMultiple x step

/-- The filter of an integer node. -/
def admitsWhole (low high step : Binary64) : Json → Bool :=
  floatPasses fun x => x.isWhole && low.le x && x.le high && isMultiple x step

variable {low high step : Binary64} {value : Json}

theorem admitsMultiple_iff : admitsMultiple low high step value = true ↔
    MultipleBetween low high step value := by
  simp only [admitsMultiple, floatPasses_iff, MultipleBetween, Bool.and_eq_true, and_assoc]

theorem admitsWhole_iff : admitsWhole low high step value = true ↔
    WholeNumber value ∧ MultipleBetween low high step value := by
  simp only [admitsWhole, floatPasses_iff, Bool.and_eq_true]
  constructor
  · rintro ⟨x, read, ⟨⟨whole, above⟩, below⟩, multiple⟩
    exact ⟨⟨x, read, whole⟩, x, read, above, below, multiple⟩
  · rintro ⟨⟨x, read, whole⟩, y, again, above, below, multiple⟩
    cases read.symm.trans again
    exact ⟨x, read, ⟨⟨whole, above⟩, below⟩, multiple⟩

/-! ## Sampling by rejection -/

/-- A run examines candidates one after another. It takes the first that is admitted, fails with
the first that fails, and is exhausted once all `attempts` are rejected. -/
structure Samples (candidate : Draw Json) (admits : Json → Prop) (attempts : Nat)
    (exhausted : SampleError) (start : Cursor) (run : Except SampleError Json × Cursor) :
    Prop where
  ok_iff : ∀ value last, run = (.ok value, last) ↔
    ∃ rejected between, Stream candidate start rejected between ∧
      (∀ other ∈ rejected, ¬ admits other) ∧ rejected.length < attempts ∧
      candidate between = (.ok value, last) ∧ admits value
  failed_iff : ∀ error last, error ≠ exhausted → (run = (.error error, last) ↔
    ∃ rejected between, Stream candidate start rejected between ∧
      (∀ other ∈ rejected, ¬ admits other) ∧ rejected.length < attempts ∧
      candidate between = (.error error, last))
  exhausted_iff : ∀ last, run = (.error exhausted, last) ↔
    ∃ rejected, Stream candidate start rejected last ∧
      (∀ other ∈ rejected, ¬ admits other) ∧ rejected.length = attempts

theorem Samples.sound {candidate : Draw Json} {admits : Json → Prop} {attempts : Nat}
    {exhausted : SampleError} {start : Cursor} {run : Except SampleError Json × Cursor}
    (samples : Samples candidate admits attempts exhausted start run) :
    Samples candidate admits attempts exhausted start run ∧
      ∀ value last, run = (.ok value, last) → admits value := by
  refine ⟨samples, fun value last drawn => ?_⟩
  obtain ⟨_, _, -, -, -, -, admitted⟩ := (samples.ok_iff value last).mp drawn
  exact admitted

/-- A filter whose candidates do not fail with its own error. -/
theorem filter_samples {options : Options} {bodies : Bodies} {inner : Generator}
    {fragment : String} {accepts : Json → Bool} {admits : Json → Prop}
    (admits_iff : ∀ value, accepts value = true ↔ admits value)
    (others : ∀ cursor last, draw options bodies inner cursor ≠
      (.error (.exhausted options.limits.maxAttempts fragment), last)) (cursor : Cursor) :
    Samples (draw options bodies inner) admits options.limits.maxAttempts
      (.exhausted options.limits.maxAttempts fragment) cursor
      (draw options bodies (.filter inner fragment accepts) cursor) := by
  have run : draw options bodies (.filter inner fragment accepts) =
      drawAccepted (draw options bodies inner) accepts
        (.exhausted options.limits.maxAttempts fragment) options.limits.maxAttempts := by
    rw [draw_eq, drawWith, ← draw_eq]
  have rejects_iff {start : Cursor} {rejected : List Json} {last : Cursor} :
      Rejects (draw options bodies inner) accepts start rejected last ↔
        Stream (draw options bodies inner) start rejected last ∧
          ∀ other ∈ rejected, ¬ admits other := by
    simp only [← admits_iff, Bool.not_eq_true]
    exact ⟨fun rejects => ⟨rejects.stream, rejects.rejects⟩, fun both => ⟨both.1, both.2⟩⟩
  rw [run]
  constructor
  · intro value last
    rw [drawAccepted_eq_ok_iff]
    simp only [rejects_iff, and_assoc, admits_iff]
  · intro error last other
    rw [drawAccepted_eq_error_iff]
    simp only [rejects_iff, and_assoc]
    refine or_iff_left ?_
    rintro ⟨_, -, -, -, rfl⟩
    exact other rfl
  · intro last
    rw [drawAccepted_eq_error_iff]
    simp only [rejects_iff, and_assoc, and_true]
    refine or_iff_right ?_
    rintro ⟨_, _, -, -, -, failed⟩
    exact others _ _ failed

/-! ## Nodes with a step -/

/-- A draw of a multiple fails only where the multiple is no JSON number. -/
theorem multiple_unexhausted {options : Options} {bodies : Bodies} {inner : Generator}
    {multiples : Multiples} (stepped : (∃ low high, inner = .integer low high (some multiples)) ∨
      ∃ low high, inner = .number low high (some multiples))
    (attempts : Nat) (fragment : String) (cursor last : Cursor) :
    draw options bodies inner cursor ≠ (.error (.exhausted attempts fragment), last) := by
  intro failed
  have meets : Meets cursor.depth (fun error => error ≠ .exhausted attempts fragment)
      (YieldsMultiple multiples) (draw options bodies inner) (draw options bodies inner) := by
    rw [draw_eq]
    rcases stepped with ⟨low, high, rfl⟩ | ⟨low, high, rfl⟩
    · exact drawWholeMultiple_meets (fun _ => nofun) fun _ => nofun
    · exact bind_meets (integer_meets fun _ => nofun) fun factor _ =>
        (finiteNumber_meets _ nofun).mono fun _ same => ⟨factor, .inr same⟩
  exact meets.allows (congrArg Prod.fst failed) rfl

variable {bounds : NumericBounds} {generator : Generator}

theorem integerOf_eq_ok (declared : bounds.multipleOf = some step) :
    integerOf bounds = .ok generator ↔ ∃ least most whole multiples,
      bounds.integerRange = .ok (least, most) ∧ wholeStep step = .ok whole ∧
      Multiples.within (.ofInt least) (.ofInt most) whole = .ok multiples ∧
      generator = .filter (.integer least most (some multiples))
        (multipleFragment "integer" step (toString least) (toString most))
        (admitsWhole (.ofInt least) (.ofInt most) step) := by
  rw [integerOf, Except.bind_eq_ok]
  constructor
  · rintro ⟨⟨least, most⟩, range, built⟩
    rw [declared] at built
    obtain ⟨whole, scaled, built⟩ := Except.bind_eq_ok.mp built
    obtain ⟨multiples, within, ⟨⟩⟩ := Except.bind_eq_ok.mp built
    exact ⟨least, most, whole, multiples, range, scaled, within, rfl⟩
  · rintro ⟨least, most, whole, multiples, range, scaled, within, rfl⟩
    refine ⟨(least, most), range, ?_⟩
    rw [declared]
    exact Except.bind_eq_ok.mpr ⟨whole, scaled, Except.bind_eq_ok.mpr ⟨multiples, within, rfl⟩⟩

theorem numberOf_eq_ok (declared : bounds.multipleOf = some step) :
    numberOf bounds = .ok generator ↔ ∃ low high multiples,
      bounds.numberRange = .ok (low, high) ∧ Multiples.within low high step = .ok multiples ∧
      generator = .filter (.number low high (some multiples))
        (multipleFragment "number" step low.plainText high.plainText)
        (admitsMultiple low high step) := by
  rw [numberOf, Except.bind_eq_ok]
  constructor
  · rintro ⟨⟨low, high⟩, range, built⟩
    rw [declared] at built
    obtain ⟨multiples, within, ⟨⟩⟩ := Except.bind_eq_ok.mp built
    exact ⟨low, high, multiples, range, within, rfl⟩
  · rintro ⟨low, high, multiples, range, within, rfl⟩
    refine ⟨(low, high), range, ?_⟩
    rw [declared]
    exact Except.bind_eq_ok.mpr ⟨multiples, within, rfl⟩

/-- Nodes with a step sample multiples of it: candidates are drawn from the multiples that the node
steps by, and every value lies within the compiled range, passes the check of the declared step and
is whole where the node is an integer one. -/
theorem multiples_sampled (declared : bounds.multipleOf = some step) (options : Options)
    (bodies : Bodies) (cursor : Cursor) :
    (∀ generator, integerOf bounds = .ok generator → ∃ least most whole multiples,
      bounds.integerRange = .ok (least, most) ∧ wholeStep step = .ok whole ∧
      Multiples.within (.ofInt least) (.ofInt most) whole = .ok multiples ∧
      Samples (draw options bodies (.integer least most (some multiples)))
        (fun value => WholeNumber value ∧ MultipleBetween (.ofInt least) (.ofInt most) step value)
        options.limits.maxAttempts (.exhausted options.limits.maxAttempts
          (multipleFragment "integer" step (toString least) (toString most))) cursor
        (draw options bodies generator cursor) ∧
      ∀ value last, draw options bodies generator cursor = (.ok value, last) →
        WholeNumber value ∧ MultipleBetween (.ofInt least) (.ofInt most) step value) ∧
    ∀ generator, numberOf bounds = .ok generator → ∃ low high multiples,
      bounds.numberRange = .ok (low, high) ∧ Multiples.within low high step = .ok multiples ∧
      Samples (draw options bodies (.number low high (some multiples)))
        (MultipleBetween low high step) options.limits.maxAttempts
        (.exhausted options.limits.maxAttempts
          (multipleFragment "number" step low.plainText high.plainText)) cursor
        (draw options bodies generator cursor) ∧
      ∀ value last, draw options bodies generator cursor = (.ok value, last) →
        MultipleBetween low high step value := by
  constructor
  · intro generator built
    obtain ⟨least, most, whole, multiples, range, scaled, within, rfl⟩ :=
      (integerOf_eq_ok declared).mp built
    refine ⟨least, most, whole, multiples, range, scaled, within, Samples.sound ?_⟩
    exact filter_samples (fun _ => admitsWhole_iff)
      (multiple_unexhausted (.inl ⟨least, most, rfl⟩) _ _) cursor
  · intro generator built
    obtain ⟨low, high, multiples, range, within, rfl⟩ := (numberOf_eq_ok declared).mp built
    refine ⟨low, high, multiples, range, within, Samples.sound ?_⟩
    exact filter_samples (fun _ => admitsMultiple_iff)
      (multiple_unexhausted (.inr ⟨low, high, rfl⟩) _ _) cursor

/-! Rounding makes three tenths miss the step of one tenth, so the next candidate is taken. -/

/-- One tenth and two. -/
def tenth : Binary64 := .ofMagnitude false 0x3FB999999999999A
def fifth : Binary64 := .ofMagnitude false 0x3FC999999999999A

example : isMultiple ((Binary64.ofInt 3).mul tenth) tenth = false := by decide +kernel

def tenths : NumericBounds :=
  { minimum := some .zero, maximum := some .one, multipleOf := some tenth }

/-- The numbers of the node, and its integers. -/
def tenthNumbers : Generator := .filter (.number .zero .one (some ⟨tenth, 0, 10⟩))
  (multipleFragment "number" tenth Binary64.zero.plainText Binary64.one.plainText)
  (admitsMultiple .zero .one tenth)

def tenthIntegers : Generator := .filter (.integer 0 1 (some ⟨.one, 0, 1⟩))
  (multipleFragment "integer" tenth (toString 0) (toString 1))
  (admitsWhole (.ofInt 0) (.ofInt 1) tenth)

/-- A source that draws three tenths, then two. -/
def tenthsCursor : Cursor := ⟨.cycle #[0, 0x50000000, 0, 0x30000000], 0⟩

theorem tenths_numberRange : tenths.numberRange = .ok (.zero, .one) := by decide +kernel

theorem tenthNumbers_built : numberOf tenths = .ok tenthNumbers :=
  (numberOf_eq_ok rfl).mpr ⟨.zero, .one, ⟨tenth, 0, 10⟩, tenths_numberRange, by decide +kernel, rfl⟩

theorem tenths_integerRange : tenths.integerRange = .ok (0, 1) := by decide +kernel

theorem tenthIntegers_built : integerOf tenths = .ok tenthIntegers :=
  (integerOf_eq_ok rfl).mpr ⟨0, 1, .one, ⟨.one, 0, 1⟩, tenths_integerRange, by decide +kernel,
    by decide +kernel, rfl⟩

theorem drawn_of_toOption {generator : Generator} {cursor : Cursor} {value : Json}
    (drawn : (draw {} [] generator cursor).1.toOption = some value) :
    ∃ last, draw {} [] generator cursor = (.ok value, last) := by
  rcases ran : draw {} [] generator cursor with ⟨_ | _, last⟩
  · rw [ran] at drawn
    cases drawn
  · rw [ran] at drawn
    cases drawn
    exact ⟨last, rfl⟩

/-- The number drawn is two tenths, the integer drawn with the same step is one. -/
theorem tenths_sampled : tenths.multipleOf = some tenth ∧
    numberOf tenths = .ok tenthNumbers ∧ integerOf tenths = .ok tenthIntegers ∧
    (∃ last, draw {} [] tenthNumbers tenthsCursor = (.ok (.float fifth), last)) ∧
    MultipleBetween .zero .one tenth (.float fifth) ∧
    (∃ last, draw {} [] tenthIntegers ⟨.cycle #[0xFFFFFFFF], 0⟩ = (.ok (.int 1), last)) ∧
    WholeNumber (.int 1) := by
  obtain ⟨_, number⟩ : ∃ last, draw {} [] tenthNumbers tenthsCursor = (.ok (.float fifth), last) :=
    drawn_of_toOption (eq_of_beq (by decide +kernel))
  obtain ⟨_, integer⟩ : ∃ last, draw {} [] tenthIntegers ⟨.cycle #[0xFFFFFFFF], 0⟩ =
    (.ok (.int 1), last) := drawn_of_toOption (eq_of_beq (by decide +kernel))
  refine ⟨rfl, tenthNumbers_built, tenthIntegers_built, ⟨_, number⟩, ?_, ⟨_, integer⟩, ?_⟩
  · obtain ⟨low, high, _, range, -, -, sound⟩ :=
      (@multiples_sampled tenth tenths rfl {} [] tenthsCursor).2 _ tenthNumbers_built
    cases tenths_numberRange.symm.trans range
    exact sound _ _ number
  · obtain ⟨_, _, _, _, -, -, -, -, sound⟩ :=
      (@multiples_sampled tenth tenths rfl {} [] ⟨.cycle #[0xFFFFFFFF], 0⟩).1 _ tenthIntegers_built
    exact (sound _ _ integer).1

end Generator

end SchemaSampler
