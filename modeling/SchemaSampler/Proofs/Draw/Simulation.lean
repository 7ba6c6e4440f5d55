import SchemaSampler.Proofs.Compile.Agreement

/-!
# Two runs side by side

`Draw.Simulates depth related draw twin` says what two draws do from one source at a reference
depth: both restore the depth and leave the same source, and they fail with the same error or give
related values. Values may differ, unlike with `Draw.Meets`, so that the loops carry a relation
between what they have collected.

Results:
1. `bind_simulates`, `deeper_simulates` and the rules for the other steps.
2. `many_simulates`, `drawDistinct_simulates`, `drawEntries_simulates`: the loops.
3. `drawAll_simulates`, `drawNth_simulates`, `drawFields_simulates`: draws from related generators.
-/

namespace SchemaSampler

namespace Draw

variable {α β γ δ : Type} {depth : Nat}

/-- At a depth two draws fail with the same error or give related values, and go on from the same
state. -/
def Simulates (depth : Nat) (related : α → β → Prop) (draw : Draw α) (twin : Draw β) : Prop :=
  ∀ source, ∃ result other rest, draw ⟨source, depth⟩ = (result, ⟨rest, depth⟩) ∧
    twin ⟨source, depth⟩ = (other, ⟨rest, depth⟩) ∧ Except.Agree related result other

/-! ## Rules for single steps -/

section Steps

variable {related : α → β → Prop}

theorem Simulates.mono {draw : Draw α} {twin : Draw β} {weaker : α → β → Prop}
    (simulates : Simulates depth related draw twin)
    (implies : ∀ value other, related value other → weaker value other) :
    Simulates depth weaker draw twin := by
  intro source
  obtain ⟨result, other, rest, ran, ranTwin, agree⟩ := simulates source
  refine ⟨result, other, rest, ran, ranTwin, ?_⟩
  cases agree with
  | ok holds => exact .ok (implies _ _ holds)
  | error => exact .error

/-- Draws that do the same give the same value. -/
theorem Meets.simulates {allowed : SampleError → Prop} {post : α → Prop} {draw twin : Draw α}
    (meets : Meets depth allowed post draw twin) :
    Simulates depth (fun value other => value = other ∧ post value) draw twin := by
  intro source
  obtain ⟨result, rest, ran, ranTwin, outcome⟩ := meets source
  refine ⟨result, result, rest, ran, ranTwin, Except.Agree.same fun value drawn => ⟨rfl, ?_⟩⟩
  rw [drawn] at outcome
  exact outcome

theorem pure_simulates {value : α} {other : β} (holds : related value other) :
    Simulates depth related (pure value : Draw α) (pure other) :=
  fun source => ⟨.ok value, .ok other, source, rfl, rfl, .ok holds⟩

theorem fail_simulates (error : SampleError) :
    Simulates depth related (fail error : Draw α) (fail error : Draw β) :=
  fun source => ⟨.error error, .error error, source, rfl, rfl, .error⟩

theorem ofExcept_simulates {result : Except SampleError α} {other : Except SampleError β}
    (agree : Except.Agree related result other) :
    Simulates depth related (ofExcept result) (ofExcept other) := by
  cases agree with
  | ok holds => exact pure_simulates holds
  | error => exact fail_simulates _

theorem bind_simulates {between : γ → δ → Prop} {draw : Draw γ} {twin : Draw δ}
    {next : γ → Draw α} {nextTwin : δ → Draw β} (first : Simulates depth between draw twin)
    (second : ∀ value other, between value other →
      Simulates depth related (next value) (nextTwin other)) :
    Simulates depth related (draw >>= next) (twin >>= nextTwin) := by
  intro source
  obtain ⟨result, other, rest, ran, ranTwin, agree⟩ := first source
  cases agree with
  | ok holds =>
    rw [bind_of_ok ran, bind_of_ok ranTwin]
    exact second _ _ holds rest
  | error => exact ⟨_, _, rest, bind_of_error ran, bind_of_error ranTwin, .error⟩

/-- One reference deeper, and back. -/
theorem deeper_simulates {draw : Draw α} {twin : Draw β}
    (inside : Simulates (depth + 1) related draw twin) :
    Simulates depth related (deeper draw) (deeper twin) := by
  intro source
  obtain ⟨result, other, rest, ran, ranTwin, agree⟩ := inside source
  refine ⟨result, other, rest, ?_, ?_, agree⟩
  · rw [deeper]
    simp only [ran]
  · rw [deeper]
    simp only [ranTwin]

end Steps

/-! ## Rules for repetition -/

section Repetition

variable {related : α → β → Prop} {draw : Draw α} {twin : Draw β}

theorem manyOnto_simulates (each : Simulates depth related draw twin) (count : Nat)
    {before : List α} {others : List β} (pairs : List.Forall₂ related before others) :
    Simulates depth (List.Forall₂ related) (manyOnto draw count before)
      (manyOnto twin count others) := by
  induction count generalizing before others with
  | zero => exact pure_simulates pairs
  | succ count ih => exact bind_simulates each fun _ _ holds => ih (.cons holds pairs)

theorem many_simulates (each : Simulates depth related draw twin) (count : Nat) :
    Simulates depth (List.Forall₂ related) (many draw count) (many twin count) :=
  bind_simulates (manyOnto_simulates each count .nil) fun _ _ pairs =>
    pure_simulates (List.forall₂_reverse_iff.mpr pairs)

end Repetition

/-- Arrays with related items in the same places. -/
def RelatedItems (related : Json → Json → Prop) (value other : Json) : Prop :=
  ∃ items others, value = .arr items ∧ other = .arr others ∧ List.Forall₂ related items others

/-- Related candidates count as repetitions together, because they hoist to the same value. -/
theorem drawDistinct_simulates {options twinOptions : Options} {draw twin : Draw Json}
    {related : Json → Json → Prop} (limits : options.limits = twinOptions.limits)
    (hoists : ∀ value other, related value other →
      hoist options.keys value = hoist twinOptions.keys other)
    (each : Simulates depth related draw twin) (length needed spare : Nat) (seen : List Json)
    {found others : List Json} (pairs : List.Forall₂ related found others) :
    Simulates depth (RelatedItems related)
      (drawDistinct options draw length needed spare seen found)
      (drawDistinct twinOptions twin length needed spare seen others) := by
  induction needed, spare, seen, found using drawDistinct.induct options generalizing others with
  | case1 spare seen found =>
    rw [drawDistinct, drawDistinct]
    exact pure_simulates ⟨_, _, rfl, rfl, List.forall₂_reverse_iff.mpr pairs⟩
  | case2 needed seen found =>
    rw [drawDistinct, drawDistinct, limits]
    exact fail_simulates _
  | case3 needed spare seen found repeated fresh =>
    rw [drawDistinct, drawDistinct]
    refine bind_simulates each fun candidate other holds => ?_
    dsimp only
    rw [← hoists candidate other holds]
    split
    · exact repeated pairs
    · exact fresh candidate (.cons holds pairs)

/-- A loop over drawn keys, on which both sides decide alike. -/
theorem drawEntries_simulates {admits admitsTwin : String → Bool} {key keyTwin value twin : Draw Json}
    {allowed : SampleError → Prop} {related : Json → Json → Prop}
    (state : Entries Json → Entries Json → Prop)
    (keys : Meets depth allowed (fun drawn => ∀ name, drawn = .str name →
      admits name = admitsTwin name) key keyTwin)
    (values : Simulates depth related value twin)
    (keeps : ∀ {members others name value other}, state members others → related value other →
      state (Entries.insert name value members) (Entries.insert name other others))
    (count : Nat) {before others : Entries Json} (start : state before others) :
    Simulates depth
      (fun drawn other => ∃ members others, drawn = .obj members ∧ other = .obj others ∧
        state members others)
      (drawEntries admits key value count before)
      (drawEntries admitsTwin keyTwin twin count others) := by
  induction count generalizing before others with
  | zero => exact pure_simulates ⟨_, _, rfl, rfl, start⟩
  | succ count ih =>
    rw [drawEntries, drawEntries]
    refine bind_simulates keys.simulates fun drawn other same => ?_
    obtain ⟨rfl, decided⟩ := same
    split
    next name =>
      rw [decided name rfl]
      split
      · exact bind_simulates values fun _ _ holds => ih (keeps start holds)
      · exact ih start
    next => exact ih start

end Draw

/-! ## Rules for related generators -/

namespace Generator

open Draw

variable {options twinOptions : Options} {depth : Nat} {expand twin : Nat → Draw Json}

/-- The draws of two generators give related values. -/
abbrev Pairs (options twinOptions : Options) (depth : Nat) (expand twin : Nat → Draw Json)
    (related : Json → Json → Prop) (generator other : Generator) : Prop :=
  Simulates depth related (generator.drawWith options expand) (other.drawWith twinOptions twin)

theorem drawAll_simulates {related : Json → Json → Prop} {items others : List Generator}
    (each : List.Forall₂ (Pairs options twinOptions depth expand twin related) items others) :
    Simulates depth (List.Forall₂ related) (drawAll options expand items)
      (drawAll twinOptions twin others) := by
  induction each with
  | nil => exact pure_simulates .nil
  | cons first _ ih =>
    refine bind_simulates first fun value other holds => ?_
    exact bind_simulates ih fun values others following => pure_simulates (.cons holds following)

theorem drawNth_simulates {related : Json → Json → Prop} {alternatives others : List Generator}
    (each : List.Forall₂ (Pairs options twinOptions depth expand twin related) alternatives others)
    (place : Nat) :
    Simulates depth related (drawNth options expand place alternatives)
      (drawNth twinOptions twin place others) := by
  induction each generalizing place with
  | nil => exact fail_simulates _
  | cons first _ ih =>
    cases place with
    | zero => exact first
    | succ place => exact ih place

/-- The fields of two records: what is drawn for them takes the collected members to others that are
related again. -/
theorem drawFields_simulates {state : Entries Json → Entries Json → Prop}
    {fields others : List (String × Generator)}
    (each : List.Forall₂ (fun field other => Pairs options twinOptions depth expand twin
      (fun value otherValue => ∀ members otherMembers, state members otherMembers →
        state (Entries.insert field.1 value members)
          (Entries.insert other.1 otherValue otherMembers)) field.2 other.2) fields others)
    {before beforeTwin : Entries Json} (start : state before beforeTwin) :
    Simulates depth
      (fun drawn other => ∃ members others, drawn = .obj members ∧ other = .obj others ∧
        state members others)
      (drawFields options expand before fields) (drawFields twinOptions twin beforeTwin others) := by
  induction each generalizing before beforeTwin with
  | nil => exact pure_simulates ⟨_, _, rfl, rfl, start⟩
  | @cons field other _ _ first _ ih =>
    obtain ⟨name, generator⟩ := field
    obtain ⟨otherName, otherGenerator⟩ := other
    exact bind_simulates first fun value otherValue keeps => ih (keeps _ _ start)

end Generator

end SchemaSampler
