import SchemaSampler.Proofs.Draw.Consecutive

/-!
# Streams of draws

A loop draws one item after the other. `Draw.Stream` names the values of consecutive draws of one
item, so what a loop does is said of the values that it has drawn: how many there are, which of
them it keeps and why it stopped there.

Results:
1. `Draw.loop_eq_iff`: a loop whose steps depend on the values drawn so far.
2. `Draw.many_eq_ok_iff`, `Draw.many_eq_error_iff`: a number of items.
3. `drawAccepted_eq_ok_iff`, `drawAccepted_eq_error_iff`: the first accepted candidate.
-/

namespace SchemaSampler

namespace Draw

variable {α β : Type} {draw : Draw α} {cursor last : Cursor} {error : SampleError}

/-- Consecutive draws of one item give the values. -/
def Stream (draw : Draw α) (cursor : Cursor) (values : List α) (last : Cursor) : Prop :=
  InTurn (List.replicate values.length draw) cursor values last

@[simp] theorem stream_nil : Stream draw cursor [] last ↔ last = cursor := by
  constructor
  · rintro ⟨⟩
    rfl
  · rintro rfl
    exact .nil

@[simp] theorem stream_cons {value : α} {values : List α} :
    Stream draw cursor (value :: values) last ↔
      ∃ between, draw cursor = (.ok value, between) ∧ Stream draw between values last := by
  constructor
  · intro stream
    cases stream with
    | cons first turns => exact ⟨_, first, turns⟩
  · rintro ⟨between, first, turns⟩
    exact .cons first turns

theorem bind_eq_ok_iff {next : α → Draw β} {result : β} :
    (draw >>= next) cursor = (.ok result, last) ↔
      ∃ value between, draw cursor = (.ok value, between) ∧
        next value between = (.ok result, last) := by
  constructor
  · exact bind_eq_ok
  · rintro ⟨value, between, first, second⟩
    exact (bind_of_ok first).trans second

theorem bind_eq_error_iff {next : α → Draw β} :
    (draw >>= next) cursor = (.error error, last) ↔
      draw cursor = (.error error, last) ∨
        ∃ value between, draw cursor = (.ok value, between) ∧
          next value between = (.error error, last) := by
  constructor
  · intro ran
    cases first : draw cursor with
    | mk outcome between =>
      cases outcome with
      | ok value => exact .inr ⟨value, between, rfl, (bind_of_ok first).symm.trans ran⟩
      | error _ =>
        have failed : (draw >>= next) cursor = _ := bind_of_error first
        cases failed.symm.trans ran
        exact .inl rfl
  · rintro (failed | ⟨value, between, first, second⟩)
    · exact bind_of_error failed
    · exact (bind_of_ok first).trans second

theorem pure_eq_ok_iff {value result : α} :
    (pure value : Draw α) cursor = (.ok result, last) ↔ result = value ∧ last = cursor := by
  constructor
  · rintro ⟨⟩
    exact ⟨rfl, rfl⟩
  · rintro ⟨rfl, rfl⟩
    rfl

theorem fail_eq_error_iff {own : SampleError} :
    (fail own : Draw α) cursor = (.error error, last) ↔ error = own ∧ last = cursor := by
  constructor
  · rintro ⟨⟩
    exact ⟨rfl, rfl⟩
  · rintro ⟨rfl, rfl⟩
    rfl

/-! ## Loops

What a loop does next depends on the values that it has drawn.
-/

/-- The property held at every time before the last value was drawn. -/
def HeldBefore (holds : List α → Prop) (drawn : List α) : Prop :=
  ∀ earlier, earlier <+: drawn → earlier ≠ drawn → holds earlier

theorem heldBefore_nil {holds : List α → Prop} : HeldBefore holds [] :=
  fun _ earlier other => absurd (List.prefix_nil.mp earlier) other

theorem heldBefore_cons {holds : List α → Prop} {value : α} {drawn : List α} :
    HeldBefore holds (value :: drawn) ↔
      holds [] ∧ HeldBefore (fun later => holds (value :: later)) drawn := by
  constructor
  · intro held
    refine ⟨held [] List.nil_prefix (List.cons_ne_nil _ _).symm, fun later shorter other => ?_⟩
    exact held _ (List.cons_prefix_cons.mpr ⟨rfl, shorter⟩) fun same => other (List.cons.inj same).2
  · rintro ⟨first, held⟩ earlier shorter other
    obtain rfl | ⟨later, rfl, inside⟩ := List.prefix_cons_iff.mp shorter
    · exact first
    · exact held later inside fun same => other (same ▸ rfl)

instance decidableHeldBefore (holds : List α → Prop) [DecidablePred holds] :
    (drawn : List α) → Decidable (HeldBefore holds drawn)
  | [] => .isTrue heldBefore_nil
  | value :: rest =>
    have := decidableHeldBefore (fun later => holds (value :: later)) rest
    decidable_of_iff _ heldBefore_cons.symm

/-- Values are drawn as long as those drawn are unfinished, and no longer than a draw fails. -/
inductive Collects (draw : Draw α) (unfinished : List α → Prop) (start : Cursor) (drawn : List α) :
    Option SampleError → Cursor → Prop
  | complete {last : Cursor} : Stream draw start drawn last → HeldBefore unfinished drawn →
      ¬ unfinished drawn → Collects draw unfinished start drawn none last
  | failed {between last : Cursor} {error : SampleError} : Stream draw start drawn between →
      HeldBefore unfinished drawn → unfinished drawn → draw between = (.error error, last) →
      Collects draw unfinished start drawn (some error) last

section Loops

variable {unfinished : List α → Prop} {failure : Option SampleError} {drawn : List α}

theorem collects_nil : Collects draw unfinished cursor [] failure last ↔
    (¬ unfinished [] ∧ failure = none ∧ last = cursor) ∨
      (unfinished [] ∧ ∃ error, failure = some error ∧ draw cursor = (.error error, last)) := by
  constructor
  · rintro (⟨stream, -, finished⟩ | ⟨stream, -, more, failed⟩)
    · exact .inl ⟨finished, rfl, stream_nil.mp stream⟩
    · exact .inr ⟨more, _, rfl, stream_nil.mp stream ▸ failed⟩
  · rintro (⟨finished, rfl, rfl⟩ | ⟨more, error, rfl, failed⟩)
    · exact .complete (stream_nil.mpr rfl) heldBefore_nil finished
    · exact .failed (stream_nil.mpr rfl) heldBefore_nil more failed

theorem collects_cons {value : α} : Collects draw unfinished cursor (value :: drawn) failure last ↔
    unfinished [] ∧ ∃ between, draw cursor = (.ok value, between) ∧
      Collects draw (fun later => unfinished (value :: later)) between drawn failure last := by
  constructor
  · rintro (⟨stream, held, finished⟩ | ⟨stream, held, more, failed⟩)
    all_goals
      obtain ⟨between, first, stream⟩ := stream_cons.mp stream
      obtain ⟨started, held⟩ := heldBefore_cons.mp held
    · exact ⟨started, between, first, .complete stream held finished⟩
    · exact ⟨started, between, first, .failed stream held more failed⟩
  · rintro ⟨started, between, first, ⟨stream, held, finished⟩ | ⟨stream, held, more, failed⟩⟩
    all_goals
      have stream := stream_cons.mpr ⟨_, first, stream⟩
      have held := heldBefore_cons.mpr ⟨started, held⟩
    · exact .complete stream held finished
    · exact .failed stream held more failed

/-- What a loop gives: the first error, or what it makes of the values. -/
def outcome (finish : List α → Except SampleError β) (drawn : List α) :
    Option SampleError → Except SampleError β
  | some error => .error error
  | none => finish drawn

/-- A loop whose steps depend on the values drawn, and that draws fewer than `bound` of them. -/
theorem loop_eq_iff (loop : List α → Draw β) {finish : List α → Except SampleError β} {bound : Nat}
    (bounded : ∀ drawn, unfinished drawn → drawn.length < bound)
    (ends : ∀ drawn, ¬ unfinished drawn → loop drawn = ofExcept (finish drawn))
    (steps : ∀ drawn, unfinished drawn → loop drawn = draw >>= fun value => loop (drawn ++ [value]))
    {result : Except SampleError β} :
    loop [] cursor = (result, last) ↔
      ∃ drawn failure, Collects draw unfinished cursor drawn failure last ∧
        result = outcome finish drawn failure := by
  suffices continued : ∀ before cursor, loop before cursor = (result, last) ↔
      ∃ drawn failure, Collects draw (fun later => unfinished (before ++ later)) cursor drawn
        failure last ∧ result = outcome finish (before ++ drawn) failure from continued [] cursor
  -- The induction is on how many values may still be drawn after those drawn before.
  intro before
  induction left : bound - before.length using Nat.strong_induction_on generalizing before with
  | _ _ ih =>
    subst left
    intro cursor
    by_cases more : unfinished before
    · have closer (value : α) : bound - (before ++ [value]).length < bound - before.length := by
        have := bounded before more
        rw [List.length_append, List.length_singleton]
        omega
      rw [steps before more]
      constructor
      · intro ran
        cases first : draw cursor with
        | mk drawn between =>
          cases drawn with
          | error error =>
            cases (bind_of_error first).symm.trans ran
            exact ⟨[], some error, collects_nil.mpr (.inr ⟨by simpa using more, error, rfl, first⟩),
              rfl⟩
          | ok value =>
            obtain ⟨drawn, failure, collects, rfl⟩ :=
              (ih _ (closer value) _ rfl between).mp ((bind_of_ok first).symm.trans ran)
            refine ⟨value :: drawn, failure, collects_cons.mpr ⟨by simpa using more, between,
              first, ?_⟩, by rw [List.append_assoc]; rfl⟩
            simpa using collects
      · rintro ⟨drawn, failure, collects, rfl⟩
        cases drawn with
        | nil =>
          rcases collects_nil.mp collects with ⟨finished, -⟩ | ⟨-, error, rfl, failed⟩
          · exact absurd (by simpa using more) finished
          · exact bind_of_error failed
        | cons value drawn =>
          obtain ⟨-, between, first, collects⟩ := collects_cons.mp collects
          refine (bind_of_ok first).trans ((ih _ (closer value) _ rfl between).mpr
            ⟨drawn, failure, by simpa using collects, by rw [List.append_assoc]; rfl⟩)
    · have stops : loop before cursor = (finish before, cursor) := by
        rw [ends before more]
        cases finish before <;> rfl
      rw [stops]
      constructor
      · rintro ⟨⟩
        exact ⟨[], none, collects_nil.mpr (.inl ⟨by simpa using more, rfl, rfl⟩), by simp [outcome]⟩
      · rintro ⟨drawn, failure, collects, rfl⟩
        cases drawn with
        | nil =>
          rcases collects_nil.mp collects with ⟨-, rfl, rfl⟩ | ⟨going, -⟩
          · simp [outcome]
          · exact absurd (by simpa using going) more
        | cons value drawn =>
          exact absurd (by simpa using (collects_cons.mp collects).1) more

/-- What holds as long as it held before holds at every earlier time. -/
theorem heldBefore_of_closed {holds : List α → Prop}
    (closed : ∀ earlier value, holds (earlier ++ [value]) → holds earlier) (now : holds drawn) :
    HeldBefore holds drawn := by
  rintro earlier ⟨later, rfl⟩ -
  induction later using List.reverseRecOn with
  | nil => simpa using now
  | append_singleton later value ih => exact ih (closed _ value (by simpa using now))

theorem HeldBefore.before_last {holds : List α → Prop} {value : α}
    (held : HeldBefore holds (drawn ++ [value])) : holds drawn :=
  held drawn (List.prefix_append _ _) (by simp)

end Loops

/-! ## A number of items -/

theorem bind_assoc {γ : Type} (first : Draw α) (second : α → Draw β) (third : β → Draw γ) :
    (first >>= second) >>= third = first >>= fun value => second value >>= third := by
  funext cursor
  show Draw.bind (Draw.bind first second) third cursor = Draw.bind first _ cursor
  unfold Draw.bind
  rcases first cursor with ⟨_ | _, _⟩ <;> rfl

theorem many_eq_iff {count : Nat} {result : Except SampleError (List α)} :
    many draw count cursor = (result, last) ↔
      ∃ drawn failure, Collects draw (fun drawn => drawn.length < count) cursor drawn failure last ∧
        result = outcome Except.ok drawn failure := by
  refine loop_eq_iff (fun drawn => do
    let values ← manyOnto draw (count - drawn.length) drawn.reverse
    pure values.reverse) (fun _ => id) ?_ ?_
  · intro drawn full
    rw [Nat.sub_eq_zero_of_le (Nat.le_of_not_lt full), manyOnto]
    show pure drawn.reverse.reverse = _
    rw [List.reverse_reverse]
    rfl
  · intro drawn missing
    obtain ⟨left, more⟩ : ∃ left, count - drawn.length = left + 1 := ⟨_, (Nat.sub_add_cancel
      (Nat.sub_pos_of_lt missing)).symm⟩
    rw [more, manyOnto, bind_assoc]
    refine congrArg _ (funext fun value => ?_)
    rw [List.length_append, List.length_singleton, ← Nat.sub_sub, more, List.reverse_concat]
    rfl

theorem many_eq_ok_iff {count : Nat} {values : List α} :
    many draw count cursor = (.ok values, last) ↔
      Stream draw cursor values last ∧ values.length = count := by
  rw [many_eq_iff]
  constructor
  · rintro ⟨drawn, failure, ⟨stream, held, full⟩ | _, same⟩ <;> cases same
    refine ⟨stream, ?_⟩
    cases values using List.reverseRecOn with
    | nil => simpa [eq_comm] using full
    | append_singleton drawn value =>
      have missing : drawn.length < count := held.before_last
      rw [List.length_append, List.length_singleton] at full ⊢
      omega
  · rintro ⟨stream, rfl⟩
    refine ⟨values, none, .complete stream ?_ (Nat.lt_irrefl _), rfl⟩
    exact fun earlier shorter other => lt_of_le_of_ne shorter.length_le fun same =>
      other (shorter.eq_of_length same)

theorem many_eq_error_iff {count : Nat} :
    many draw count cursor = (.error error, last) ↔
      ∃ drawn between, Stream draw cursor drawn between ∧ drawn.length < count ∧
        draw between = (.error error, last) := by
  rw [many_eq_iff]
  constructor
  · rintro ⟨drawn, failure, _ | ⟨stream, -, more, failed⟩, same⟩ <;> cases same
    exact ⟨drawn, _, stream, more, failed⟩
  · rintro ⟨drawn, between, stream, more, failed⟩
    refine ⟨drawn, some error, .failed stream (heldBefore_of_closed ?_ more) more failed, rfl⟩
    intro earlier value longer
    exact Nat.lt_of_le_of_lt (by simp) longer

end Draw

open Draw

/-! ## The first accepted candidate -/

section Accepted

variable {inner : Draw Json} {accepts : Json → Bool} {exhausted error : SampleError}
  {attempts : Nat} {cursor last : Cursor} {value : Json}

/-- Consecutive candidates, none of which is accepted. -/
structure Rejects (inner : Draw Json) (accepts : Json → Bool) (cursor : Cursor)
    (rejected : List Json) (last : Cursor) : Prop where
  stream : Stream inner cursor rejected last
  rejects : ∀ candidate ∈ rejected, accepts candidate = false

theorem rejects_nil : Rejects inner accepts cursor [] last ↔ last = cursor :=
  ⟨fun rejects => stream_nil.mp rejects.stream, fun same => ⟨stream_nil.mpr same, nofun⟩⟩

theorem rejects_cons {candidate : Json} {rest : List Json} :
    Rejects inner accepts cursor (candidate :: rest) last ↔
      ∃ between, inner cursor = (.ok candidate, between) ∧ accepts candidate = false ∧
        Rejects inner accepts between rest last := by
  constructor
  · rintro ⟨stream, rejects⟩
    obtain ⟨between, first, later⟩ := stream_cons.mp stream
    obtain ⟨own, others⟩ := List.forall_mem_cons.mp rejects
    exact ⟨between, first, own, later, others⟩
  · rintro ⟨between, first, own, later, others⟩
    exact ⟨stream_cons.mpr ⟨between, first, later⟩, List.forall_mem_cons.mpr ⟨own, others⟩⟩

/-- The value is the first candidate that is accepted, one of the first `attempts`. -/
theorem drawAccepted_eq_ok_iff :
    drawAccepted inner accepts exhausted attempts cursor = (.ok value, last) ↔
      ∃ rejected between, Rejects inner accepts cursor rejected between ∧
        rejected.length < attempts ∧ inner between = (.ok value, last) ∧
        accepts value = true := by
  induction attempts generalizing cursor with
  | zero =>
    rw [drawAccepted]
    constructor
    · rintro ⟨⟩
    · rintro ⟨_, _, -, below, -⟩
      exact absurd below (Nat.not_lt_zero _)
  | succ attempts ih =>
    rw [drawAccepted, bind_eq_ok_iff]
    constructor
    · rintro ⟨candidate, between, first, later⟩
      split at later
      next accepted =>
        obtain ⟨rfl, rfl⟩ := pure_eq_ok_iff.mp later
        exact ⟨[], cursor, rejects_nil.mpr rfl, Nat.succ_pos attempts, first, accepted⟩
      next refused =>
        obtain ⟨rejected, between', rejects, below, drawn⟩ := ih.mp later
        exact ⟨candidate :: rejected, between',
          rejects_cons.mpr ⟨between, first, Bool.eq_false_iff.mpr refused, rejects⟩,
          Nat.succ_lt_succ below, drawn⟩
    · rintro ⟨rejected, between, rejects, below, drawn, accepted⟩
      cases rejected with
      | nil =>
        refine ⟨value, last, rejects_nil.mp rejects ▸ drawn, ?_⟩
        rw [if_pos accepted]
        rfl
      | cons candidate rest =>
        obtain ⟨between', first, refused, rejects⟩ := rejects_cons.mp rejects
        refine ⟨candidate, between', first, ?_⟩
        rw [if_neg (Bool.eq_false_iff.mp refused)]
        exact ih.mpr ⟨rest, between, rejects, Nat.lt_of_succ_lt_succ below, drawn, accepted⟩

/-- The error is that of the first candidate to fail, or all attempts are used up. -/
theorem drawAccepted_eq_error_iff :
    drawAccepted inner accepts exhausted attempts cursor = (.error error, last) ↔
      (∃ rejected between, Rejects inner accepts cursor rejected between ∧
        rejected.length < attempts ∧ inner between = (.error error, last)) ∨
      ∃ rejected, Rejects inner accepts cursor rejected last ∧ rejected.length = attempts ∧
        error = exhausted := by
  induction attempts generalizing cursor with
  | zero =>
    rw [drawAccepted, fail_eq_error_iff]
    constructor
    · rintro ⟨rfl, rfl⟩
      exact .inr ⟨[], rejects_nil.mpr rfl, rfl, rfl⟩
    · rintro (⟨_, _, -, below, -⟩ | ⟨rejected, rejects, none, rfl⟩)
      · exact absurd below (Nat.not_lt_zero _)
      · cases List.length_eq_zero_iff.mp none
        exact ⟨rfl, rejects_nil.mp rejects⟩
  | succ attempts ih =>
    rw [drawAccepted, bind_eq_error_iff]
    constructor
    · rintro (failed | ⟨candidate, between, first, later⟩)
      · exact .inl ⟨[], cursor, rejects_nil.mpr rfl, Nat.succ_pos attempts, failed⟩
      · split at later
        next => cases later
        next refused =>
          have longer {rejected : List Json} {last : Cursor}
              (rejects : Rejects inner accepts between rejected last) :
              Rejects inner accepts cursor (candidate :: rejected) last :=
            rejects_cons.mpr ⟨between, first, Bool.eq_false_iff.mpr refused, rejects⟩
          rcases ih.mp later with ⟨rejected, between', rejects, below, failed⟩ |
            ⟨rejected, rejects, full, same⟩
          · exact .inl ⟨candidate :: rejected, between', longer rejects,
              Nat.succ_lt_succ below, failed⟩
          · exact .inr ⟨candidate :: rejected, longer rejects, congrArg Nat.succ full, same⟩
    · rintro (⟨rejected, between, rejects, below, failed⟩ | ⟨rejected, rejects, full, same⟩)
      · cases rejected with
        | nil => exact .inl (rejects_nil.mp rejects ▸ failed)
        | cons candidate rest =>
          obtain ⟨between', first, refused, rejects⟩ := rejects_cons.mp rejects
          refine .inr ⟨candidate, between', first, ?_⟩
          rw [if_neg (Bool.eq_false_iff.mp refused)]
          exact ih.mpr (.inl ⟨rest, between, rejects, Nat.lt_of_succ_lt_succ below, failed⟩)
      · cases rejected with
        | nil => cases full
        | cons candidate rest =>
          obtain ⟨between', first, refused, rejects⟩ := rejects_cons.mp rejects
          refine .inr ⟨candidate, between', first, ?_⟩
          rw [if_neg (Bool.eq_false_iff.mp refused)]
          exact ih.mpr (.inr ⟨rest, rejects, Nat.succ.inj full, same⟩)

end Accepted

end SchemaSampler
