import SchemaSampler.Proofs.Compile.Failures
import SchemaSampler.Proofs.Compile.Order
import SchemaSampler.Proofs.FirstOccurrences

/-!
# Runs of a binder

A binder takes registrations and bodies in any order, with any names and slot numbers. Its names,
its index and its bodies stay in step all the while: a name has the slot in which it stands, the
root's slot has no name in the index, and a slot has the body that was filled in last. A definition
may have the name of the root; it gets a slot of its own.

Results:
1. `Binder.Consistent.after`, `Binder.consistent_run`: names, index and bodies are in step.
2. `Binder.names_run`: the names in the order of their first registration.
3. `Binder.body_run`: a slot has the body that was filled in last.
4. `Binder.bodiesOf_eq_ok_iff`, `Binder.bodiesOf_eq_error`: how a binder is closed.
5. `Binder.run_in_step`: all of it, for every run.
-/

namespace SchemaSampler

namespace Binder

/-! ## Calls -/

/-- A call on a binder. -/
inductive Call where
  | register (name : String)
  | fill (slot : Nat) (body : Generator)

/-- The name that a call registers. -/
def Call.name? : Call → Option String
  | register name => some name
  | fill _ _ => none

/-- The binder after a call; one that fails leaves it as it is. -/
def after (binder : Binder) : Call → Binder
  | .register name => (binder.register name).2
  | .fill slot body =>
    match binder.fill slot body with
    | .ok filled => filled
    | .error _ => binder

/-- A new binder after some calls, one after the other. -/
def run (calls : List Call) : Binder := calls.foldl after {}

/-- The slot is there when it is filled with the body, and it is not filled again. -/
def FilledLast (calls : List Call) (slot : Nat) (body : Generator) : Prop :=
  ∃ earlier later, calls = earlier ++ .fill slot body :: later ∧
    slot < (run earlier).names.length ∧ ∀ other, .fill slot other ∉ later

/-- A binder in which the slot has got the body; in everything else it is the binder before. -/
structure FilledAt (slot : Nat) (body : Generator) (before binder : Binder) : Prop where
  names : binder.names = before.names
  index : binder.index = before.index
  slots : binder.bodies.length = before.bodies.length
  own : binder.bodies[slot]? = some (some body)
  others : ∀ other, other ≠ slot → binder.bodies[other]? = before.bodies[other]?

variable {binder : Binder} {calls : List Call} {name : String} {slot : Nat} {body : Generator}

theorem run_concat (calls : List Call) (call : Call) :
    run (calls ++ [call]) = (run calls).after call := List.foldl_concat ..

/-! ## Single calls -/

theorem after_register_of_missing (missing : binder.index.get? name = none) :
    binder.after (.register name) = ⟨binder.names ++ [name],
      binder.index.insert name binder.bodies.length, binder.bodies ++ [none]⟩ :=
  register_of_missing missing

theorem after_fill_of_lt (there : slot < binder.bodies.length) :
    binder.after (.fill slot body) =
      { binder with bodies := binder.bodies.set slot (some body) } := by
  rw [after, fill, if_pos there]

theorem after_fill_of_le (beyond : binder.bodies.length ≤ slot) :
    binder.after (.fill slot body) = binder := by
  rw [after, fill, if_neg (not_lt_of_ge beyond)]

namespace Consistent

variable (consistent : binder.Consistent)

include consistent

theorem fill (slot : Nat) (body : Generator) :
    (binder.after (.fill slot body)).Consistent := by
  rcases Nat.lt_or_ge slot binder.bodies.length with there | beyond
  · rw [after_fill_of_lt there]
    exact ⟨consistent.length_eq.trans List.length_set.symm, consistent.root, consistent.sorted,
      consistent.index_iff⟩
  · rw [after_fill_of_le beyond]
    exact consistent

/-- A call keeps names, index and bodies in step. -/
theorem after (call : Call) : (binder.after call).Consistent := by
  cases call with
  | register name => exact consistent.register name
  | fill slot body => exact consistent.fill slot body

/-- Behind the root's, no name has two slots. -/
theorem nodup : binder.names.tail.Nodup := by
  rw [List.nodup_iff_getElem?_ne_getElem?]
  intro slot later before inside same
  have named : binder.names.tail[slot]? = some binder.names.tail[slot] :=
    List.getElem?_eq_getElem (before.trans inside)
  have again := same.symm.trans named
  rw [List.getElem?_tail] at named again
  have own := consistent.index_iff.mpr ⟨Nat.succ_pos slot, named⟩
  have other := consistent.index_iff.mpr ⟨Nat.succ_pos later, again⟩
  have equal := Nat.succ.inj (Option.some.inj (own.symm.trans other))
  exact before.ne equal

theorem found_iff :
    (∃ slot, binder.index.get? name = some slot) ↔ name ∈ binder.names.tail := by
  rw [List.mem_iff_getElem?]
  constructor
  · rintro ⟨slot, found⟩
    obtain ⟨behind, named⟩ := consistent.index_iff.mp found
    obtain ⟨place, rfl⟩ := Nat.exists_eq_add_of_lt behind
    refine ⟨place, ?_⟩
    rwa [List.getElem?_tail, ← Nat.zero_add place]
  · rintro ⟨place, named⟩
    rw [List.getElem?_tail] at named
    exact ⟨place + 1, consistent.index_iff.mpr ⟨Nat.succ_pos place, named⟩⟩

theorem register_ne_root (name : String) : (binder.register name).1 ≠ rootSlot := by
  have found := get?_register binder name name
  rw [if_pos rfl] at found
  exact ((consistent.register name).index_iff.mp found).1.ne'

/-- A slot that is there gets its body, and nothing else changes; any other slot is refused. -/
theorem fill_cases (slot : Nat) (body : Generator) :
    (slot < binder.names.length ∧
      ∃ filled, binder.fill slot body = .ok filled ∧ FilledAt slot body binder filled) ∨
    (binder.names.length ≤ slot ∧
      binder.fill slot body = .error (.invalidSchema (.missingSlot slot)) ∧
      binder.after (.fill slot body) = binder) := by
  rw [consistent.length_eq]
  rcases Nat.lt_or_ge slot binder.bodies.length with there | beyond
  · refine .inl ⟨there, _, if_pos there, ?_⟩
    exact {
      names := rfl
      index := rfl
      slots := List.length_set
      own := List.getElem?_set_self there
      others := fun other different => List.getElem?_set_ne different.symm }
  · exact .inr ⟨beyond, if_neg (not_lt_of_ge beyond), after_fill_of_le beyond⟩

end Consistent

/-! ## Runs -/

theorem consistent_run (calls : List Call) : (run calls).Consistent := by
  induction calls using List.reverseRecOn with
  | nil => exact consistent_empty
  | append_singleton calls call ih =>
    rw [run_concat]
    exact ih.after call

/-- A name keeps its slot. -/
theorem get?_after (found : binder.index.get? name = some slot) (call : Call) :
    (binder.after call).index.get? name = some slot := by
  cases call with
  | register other =>
    rw [after, get?_register]
    split
    next same =>
      subst same
      rw [register_of_found found]
    next => exact found
  | fill place body =>
    rcases Nat.lt_or_ge place binder.bodies.length with there | beyond
    · rw [after_fill_of_lt there]
      exact found
    · rw [after_fill_of_le beyond]
      exact found

theorem get?_run (found : (run calls).index.get? name = some slot) (later : List Call) :
    (run (calls ++ later)).index.get? name = some slot := by
  induction later using List.reverseRecOn with
  | nil => rwa [List.append_nil]
  | append_singleton later call ih =>
    rw [← List.append_assoc, run_concat]
    exact get?_after ih call

/-- A name that was registered has the slot that it got then, and registering it again changes
nothing. -/
theorem register_again (earlier : List Call) (name : String) (later : List Call) :
    (run (earlier ++ .register name :: later)).register name =
      (((run earlier).register name).1, run (earlier ++ .register name :: later)) := by
  refine register_of_found ?_
  rw [List.append_cons]
  refine get?_run ?_ later
  rw [run_concat, after, get?_register, if_pos rfl]

/-- The names stand in the order of their first registration, after the root's. -/
theorem names_run (calls : List Call) :
    (run calls).names = rootPointer :: (calls.filterMap Call.name?).eraseDups := by
  induction calls using List.reverseRecOn with
  | nil => rfl
  | append_singleton calls call ih =>
    rw [run_concat, List.filterMap_append]
    cases call with
    | register name =>
      have known : (∃ slot, (run calls).index.get? name = some slot) ↔
          name ∈ (run calls).names.tail := (consistent_run calls).found_iff
      rw [ih, List.tail_cons, List.mem_eraseDups] at known
      rw [show [Call.register name].filterMap Call.name? = [name] from rfl, eraseDups_concat]
      cases found : (run calls).index.get? name with
      | some slot =>
        rw [if_pos (known.mp ⟨slot, found⟩), after, register_of_found found, ih]
      | none =>
        have new : name ∉ calls.filterMap Call.name? := fun old =>
          nomatch found.symm.trans (known.mpr old).choose_spec
        rw [if_neg new, after_register_of_missing found, ih]
        rfl
    | fill slot body =>
      rw [show [Call.fill slot body].filterMap Call.name? = [] from rfl, List.append_nil, ← ih]
      rcases Nat.lt_or_ge slot (run calls).bodies.length with there | beyond
      · rw [after_fill_of_lt there]
      · rw [after_fill_of_le beyond]

/-! ## Bodies -/

/-- The last call decides about the slot that it fills. -/
theorem filledLast_concat_fill {content : Generator} :
    FilledLast (calls ++ [.fill slot content]) slot body ↔
      content = body ∧ slot < (run calls).names.length := by
  constructor
  · rintro ⟨earlier, later, same, there, last⟩
    rcases List.eq_nil_or_concat' later with rfl | ⟨others, call, rfl⟩
    · obtain ⟨rfl, fill⟩ := List.append_inj' same rfl
      cases fill
      exact ⟨rfl, there⟩
    · rw [← List.cons_append, ← List.append_assoc] at same
      obtain ⟨-, fill⟩ := List.append_inj' same rfl
      cases fill
      exact absurd (List.mem_append_right _ List.mem_cons_self) (last content)
  · rintro ⟨rfl, there⟩
    exact ⟨calls, [], rfl, there, fun _ => List.not_mem_nil⟩

theorem filledLast_concat_other {call : Call} (other : ∀ content, call ≠ .fill slot content) :
    FilledLast (calls ++ [call]) slot body ↔ FilledLast calls slot body := by
  constructor
  · rintro ⟨earlier, later, same, there, last⟩
    rcases List.eq_nil_or_concat' later with rfl | ⟨others, final, rfl⟩
    · obtain ⟨-, fill⟩ := List.append_inj' same rfl
      cases fill
      exact absurd rfl (other body)
    · rw [← List.cons_append, ← List.append_assoc] at same
      obtain ⟨rfl, -⟩ := List.append_inj' same rfl
      exact ⟨earlier, others, rfl, there, fun content listed =>
        last content (List.mem_append_left _ listed)⟩
  · rintro ⟨earlier, later, rfl, there, last⟩
    refine ⟨earlier, later ++ [call], by rw [List.append_assoc, List.cons_append], there,
      fun content listed => ?_⟩
    rcases List.mem_append.mp listed with before | final
    · exact last content before
    · exact other content (List.mem_singleton.mp final).symm

theorem body_after_register :
    (binder.after (.register name)).bodies[slot]? = some (some body) ↔
      binder.bodies[slot]? = some (some body) := by
  cases found : binder.index.get? name with
  | some place => rw [after, register_of_found found]
  | none =>
    rw [after_register_of_missing found, getElem?_concat_eq_some]
    exact ⟨fun either => either.resolve_right fun last => (nomatch last.2), .inl⟩

/-- A slot has the body that was filled in last. -/
theorem body_run : (run calls).bodies[slot]? = some (some body) ↔ FilledLast calls slot body := by
  induction calls using List.reverseRecOn with
  | nil =>
    refine ⟨fun found => ?_, fun ⟨earlier, later, same, _⟩ => ?_⟩
    · have listed : some body ∈ [none] := List.mem_of_getElem? found
      exact nomatch List.mem_singleton.mp listed
    · exact absurd same.symm (List.append_ne_nil_of_right_ne_nil _ (List.cons_ne_nil _ _))
  | append_singleton calls call ih =>
    rw [run_concat]
    cases call with
    | register name =>
      have other : ∀ content, Call.register name ≠ .fill slot content := fun _ => nofun
      rw [body_after_register, filledLast_concat_other other, ih]
    | fill place content =>
      have lengths := (consistent_run calls).length_eq
      by_cases own : place = slot
      · subst own
        rw [filledLast_concat_fill, lengths]
        rcases Nat.lt_or_ge place (run calls).bodies.length with there | beyond
        · rw [after_fill_of_lt there, List.getElem?_set_self there, Option.some.injEq,
            Option.some.injEq]
          exact (and_iff_left there).symm
        · rw [after_fill_of_le beyond, List.getElem?_eq_none beyond]
          exact ⟨nofun, fun filled => absurd filled.2 (not_lt_of_ge beyond)⟩
      · have different : ∀ body, Call.fill place content ≠ .fill slot body := by
          rintro _ ⟨⟩
          exact own rfl
        rw [filledLast_concat_other different, ← ih]
        rcases Nat.lt_or_ge place (run calls).bodies.length with there | beyond
        · rw [after_fill_of_lt there, List.getElem?_set_ne own]
        · rw [after_fill_of_le beyond]

/-! ## Closing -/

theorem bodiesOf_eq_ok_iff {names : List String} {bodies : List (Option Generator)}
    {closed : List Generator} (same : names.length = bodies.length) :
    bodiesOf names bodies = .ok closed ↔ bodies = closed.map some := by
  constructor
  · intro whole
    induction names generalizing bodies closed with
    | nil =>
      cases List.length_eq_zero_iff.mp same.symm
      cases whole
      rfl
    | cons name rest ih =>
      obtain ⟨first, others, rfl⟩ := List.exists_cons_of_length_eq_add_one same.symm
      cases first with
      | none => cases whole
      | some body =>
        obtain ⟨bodies, later, own⟩ := Except.bind_eq_ok.mp whole
        cases own
        rw [List.map_cons, ih (Nat.succ.inj same) later]
  · rintro rfl
    exact bodiesOf_map_some (same.trans (List.length_map _))

/-- The first slot without a body is the one to blame. -/
theorem bodiesOf_eq_error {names : List String} {bodies : List (Option Generator)}
    {error : SampleError} (failed : bodiesOf names bodies = .error error) :
    ∃ (slot : Nat) (name : String), error = .unboundDefinition name ∧ names[slot]? = some name ∧
      bodies[slot]? = some none ∧ ∀ earlier < slot, ∃ body, bodies[earlier]? = some (some body) := by
  induction names, bodies using bodiesOf.induct with
  | case1 name names bodies body ih =>
    rcases Except.bind_eq_error.mp failed with later | ⟨_, -, absent⟩
    · obtain ⟨slot, other, own, named, unfilled, before⟩ := ih later
      refine ⟨slot + 1, other, own, named, unfilled, fun earlier below => ?_⟩
      cases earlier with
      | zero => exact ⟨body, rfl⟩
      | succ earlier => exact before earlier (Nat.lt_of_succ_lt_succ below)
    · cases absent
  | case2 name names bodies =>
    cases failed
    exact ⟨0, name, rfl, rfl, rfl, fun _ below => absurd below (Nat.not_lt_zero _)⟩
  | case3 names bodies short =>
    rw [bodiesOf] at failed
    · cases failed
    · exact short

theorem freeze_run_eq_ok {slots : Slots} (closed : (run calls).freeze = .ok slots) :
    slots.names = (run calls).names ∧ slots.bodies.length = (run calls).names.length ∧
      ∀ slot body, slots.bodies[slot]? = some body ↔ FilledLast calls slot body := by
  have lengths := (consistent_run calls).length_eq
  obtain ⟨bodies, whole, same⟩ := Except.bind_eq_ok.mp closed
  cases same
  have filled := (bodiesOf_eq_ok_iff lengths).mp whole
  refine ⟨rfl, by rw [lengths, filled, List.length_map], fun slot body => ?_⟩
  rw [← body_run, filled, List.getElem?_map, Option.map_eq_some_iff]
  simp

theorem freeze_run_eq_error {error : SampleError} (failed : (run calls).freeze = .error error) :
    ∃ slot name, error = .unboundDefinition name ∧ (run calls).names[slot]? = some name ∧
      (∀ body, ¬ FilledLast calls slot body) ∧
      ∀ earlier < slot, ∃ body, FilledLast calls earlier body := by
  rcases Except.bind_eq_error.mp failed with unclosed | ⟨_, -, absent⟩
  · obtain ⟨slot, name, own, named, unfilled, before⟩ := bodiesOf_eq_error unclosed
    refine ⟨slot, name, own, named, fun body filled => ?_, fun earlier below => ?_⟩
    · exact nomatch unfilled.symm.trans (body_run.mpr filled)
    · obtain ⟨body, filled⟩ := before earlier below
      exact ⟨body, body_run.mp filled⟩
  · cases absent

/-- A binder is closed exactly if all its slots were filled. -/
theorem freeze_run_isOk :
    (∃ slots, (run calls).freeze = .ok slots) ↔
      ∀ slot < (run calls).names.length, ∃ body, FilledLast calls slot body := by
  constructor
  · rintro ⟨slots, closed⟩ slot inside
    obtain ⟨-, whole, filled⟩ := freeze_run_eq_ok closed
    rw [← whole] at inside
    exact ⟨_, (filled slot _).mp (List.getElem?_eq_getElem inside)⟩
  · intro all
    cases closed : (run calls).freeze with
    | ok slots => exact ⟨slots, rfl⟩
    | error error =>
      obtain ⟨slot, name, -, named, unfilled, -⟩ := freeze_run_eq_error closed
      obtain ⟨body, filled⟩ := all slot (List.getElem?_eq_some_iff.mp named).1
      exact absurd filled (unfilled body)

/-- After any calls on a new binder, names, index and bodies are in step: the root has the first slot
and no other call gets it, and a name has the slot in which it stands, behind the root's and once.
The names come in the order of their first registration; a name that was registered has its slot
from then on. Filling changes the body of its slot only, or nothing. The binder is closed with the
bodies that were filled in last, in order, if every slot has one; otherwise the name of the first
slot without one is blamed. -/
theorem run_in_step (calls : List Call) :
    (run calls).Consistent ∧ (run calls).names.tail.Nodup ∧
    (run calls).names = rootPointer :: (calls.filterMap Call.name?).eraseDups ∧
    (∀ name, ((run calls).register name).1 ≠ rootSlot) ∧
    (∀ earlier name later, calls = earlier ++ .register name :: later →
      (run calls).register name = (((run earlier).register name).1, run calls)) ∧
    (∀ slot body,
      (slot < (run calls).names.length ∧
        ∃ filled, (run calls).fill slot body = .ok filled ∧
          FilledAt slot body (run calls) filled) ∨
      ((run calls).names.length ≤ slot ∧
        (run calls).fill slot body = .error (.invalidSchema (.missingSlot slot)) ∧
        (run calls).after (.fill slot body) = run calls)) ∧
    ((∃ slots, (run calls).freeze = .ok slots) ↔
      ∀ slot < (run calls).names.length, ∃ body, FilledLast calls slot body) ∧
    (∀ slots, (run calls).freeze = .ok slots →
      slots.names = (run calls).names ∧ slots.bodies.length = (run calls).names.length ∧
      ∀ slot body, slots.bodies[slot]? = some body ↔ FilledLast calls slot body) ∧
    (∀ error, (run calls).freeze = .error error →
      ∃ slot name, error = .unboundDefinition name ∧ (run calls).names[slot]? = some name ∧
        (∀ body, ¬ FilledLast calls slot body) ∧
        ∀ earlier < slot, ∃ body, FilledLast calls earlier body) := by
  have consistent := consistent_run calls
  refine ⟨consistent, consistent.nodup, names_run calls, consistent.register_ne_root, ?_,
    consistent.fill_cases, freeze_run_isOk, fun _ => freeze_run_eq_ok,
    fun _ => freeze_run_eq_error⟩
  rintro earlier name later rfl
  exact register_again earlier name later

/-- A definition with the root's name has a slot of its own, and an early body is lost. -/
example :
    let calls : List Call := [.fill 1 .boolean, .register "#", .fill 0 .boolean, .register ""]
    (run calls).names = ["#", "#", ""] ∧ ((run calls).register "#").1 = 1 ∧
      (run calls).resolve "#" = .ok 0 ∧
      (run calls).freeze = .error (.unboundDefinition "#") := ⟨rfl, rfl, rfl, rfl⟩

end Binder

end SchemaSampler
