import Mathlib
import SchemaSampler.Pattern.Matching

/-!
# Steps between positions

A step maps positions to the positions that come next. When the step goes from each position by
itself, so do repetitions of it, and the search over rounds finds what paths of steps reach.

Results:
1. `Positions.mem_reach`: what the search finds.
2. `Positions.Additive.iterate`, `Positions.Additive.reach`: repetitions of a step from each
   position by itself.
-/

namespace SchemaSampler

namespace Positions

variable {step : Positions → Positions}

/-- What is reached from several positions is reached from one of them. -/
def Additive (step : Positions → Positions) : Prop :=
  ∀ starts position, position ∈ step starts ↔ ∃ start ∈ starts, position ∈ step [start]

theorem mem_union {a b : Positions} {position : Nat} :
    position ∈ union a b ↔ position ∈ a ∨ position ∈ b := by
  by_cases early : position ∈ a <;> simp [union, early]

theorem Additive.mono (additive : Additive step) {starts others : Positions}
    (more : starts ⊆ others) : step starts ⊆ step others := by
  intro position reached
  obtain ⟨start, listed, own⟩ := (additive starts position).mp reached
  exact (additive others position).mpr ⟨start, more listed, own⟩

theorem Additive.nil (additive : Additive step) : step [] = [] := by
  refine List.eq_nil_iff_forall_not_mem.mpr fun position reached => ?_
  obtain ⟨_, absent, _⟩ := (additive [] position).mp reached
  cases absent

theorem Additive.comp {next : Positions → Positions} (additive : Additive step)
    (further : Additive next) : Additive fun starts => next (step starts) := by
  intro starts position
  constructor
  · intro reached
    obtain ⟨between, first, second⟩ := (further _ _).mp reached
    obtain ⟨start, listed, own⟩ := (additive _ _).mp first
    exact ⟨start, listed, (further _ _).mpr ⟨between, own, second⟩⟩
  · rintro ⟨start, listed, reached⟩
    exact further.mono (additive.mono (List.cons_subset.mpr ⟨listed, List.nil_subset _⟩)) reached

theorem Additive.union {other : Positions → Positions} (additive : Additive step)
    (also : Additive other) : Additive fun starts => union (step starts) (other starts) := by
  intro starts position
  simp only [mem_union]
  rw [additive, also]
  constructor
  · rintro (⟨start, listed, own⟩ | ⟨start, listed, own⟩)
    · exact ⟨start, listed, .inl own⟩
    · exact ⟨start, listed, .inr own⟩
  · rintro ⟨start, listed, own | own⟩
    · exact .inl ⟨start, listed, own⟩
    · exact .inr ⟨start, listed, own⟩

theorem additive_id : Additive fun starts => starts := by
  intro starts position
  simp

theorem iterate_succ (additive : Additive step) (count : Nat) (starts : Positions) :
    iterate step (count + 1) starts = iterate step count (step starts) := by
  cases starts with
  | cons => rfl
  | nil =>
    rw [additive.nil]
    cases count <;> rfl

theorem Additive.iterate (additive : Additive step) (count : Nat) :
    Additive (Positions.iterate step count) := by
  induction count with
  | zero => exact additive_id
  | succ count ih =>
    have unfolded : Positions.iterate step (count + 1) =
        fun starts => Positions.iterate step count (step starts) :=
      funext fun starts => iterate_succ additive count starts
    rw [unfolded]
    exact additive.comp ih

/-! ## The search -/

/-- A position is reached from another in a number of steps. -/
inductive Reaches (step : Positions → Positions) : Nat → Nat → Nat → Prop where
  | here (position : Nat) : Reaches step 0 position position
  | later {count start between position : Nat} (first : between ∈ step [start])
      (rest : Reaches step count between position) : Reaches step (count + 1) start position

/-- The new positions of a round. -/
def fresh (step : Positions → Positions) (frontier reached : Positions) : Positions :=
  (step frontier).filter fun position => !reached.contains position

theorem mem_append_fresh {frontier reached : Positions} {position : Nat}
    (stepped : position ∈ step frontier) : position ∈ reached ++ fresh step frontier reached := by
  by_cases old : position ∈ reached
  · exact List.mem_append_left _ old
  · exact List.mem_append_right _ (List.mem_filter.mpr ⟨stepped, by simpa using old⟩)

/-- The invariant of the search: all of what was reached, except the frontier, was gone on from. -/
structure Expanded (step : Positions → Positions) (frontier reached : Positions) : Prop where
  inside : frontier ⊆ reached
  closed : ∀ start ∈ reached, start ∈ frontier ∨ step [start] ⊆ reached

/-- From what was reached, a path ends there or goes on from the frontier. -/
theorem Expanded.through {frontier reached : Positions} (expanded : Expanded step frontier reached)
    {count start position : Nat} (path : Reaches step count start position)
    (present : start ∈ reached) :
    position ∈ reached ∨
      ∃ between ∈ frontier, ∃ fewer ≤ count, Reaches step fewer between position := by
  induction path with
  | here => exact .inl present
  | @later count start between position first rest ih =>
    rcases expanded.closed start present with open' | closed
    · exact .inr ⟨start, open', count + 1, Nat.le_refl _, .later first rest⟩
    · rcases ih (closed first) with done | ⟨other, listed, fewer, bound, path⟩
      · exact .inl done
      · exact .inr ⟨other, listed, fewer, Nat.le_succ_of_le bound, path⟩

/-- A round goes on from its frontier. -/
theorem Expanded.next (additive : Additive step) {frontier reached : Positions}
    (expanded : Expanded step frontier reached) :
    (∀ start ∈ frontier, step [start] ⊆ reached ++ fresh step frontier reached) ∧
      Expanded step (fresh step frontier reached) (reached ++ fresh step frontier reached) := by
  have stepped (start : Nat) (listed : start ∈ frontier) :
      step [start] ⊆ reached ++ fresh step frontier reached := by
    intro position own
    exact mem_append_fresh (additive.mono (List.cons_subset.mpr ⟨listed, List.nil_subset _⟩) own)
  refine ⟨stepped, List.subset_append_right _ _, fun start present => ?_⟩
  rcases List.mem_append.mp present with old | new
  · rcases expanded.closed start old with open' | closed
    · exact .inr (stepped start open')
    · exact .inr (List.Subset.trans closed (List.subset_append_left _ _))
  · exact .inl new

/-- The search finds what paths of at most its number of rounds reach. -/
theorem mem_reach (additive : Additive step) {fuel : Nat} {frontier reached : Positions}
    (expanded : Expanded step frontier reached) {position : Nat} :
    position ∈ reach step fuel frontier reached ↔ position ∈ reached ∨
      ∃ start ∈ frontier, ∃ count ≤ fuel, Reaches step count start position := by
  induction fuel generalizing frontier reached with
  | zero =>
    refine ⟨.inl, ?_⟩
    rintro (done | ⟨start, listed, _, none, path⟩)
    · exact done
    · cases Nat.le_zero.mp none
      cases path
      exact expanded.inside listed
  | succ fuel ih =>
    obtain ⟨stepped, round⟩ := expanded.next additive
    rw [reach]
    split
    next empty =>
      refine ⟨.inl, ?_⟩
      rw [show fresh step frontier reached = [] from empty, List.append_nil] at round
      rintro (done | ⟨start, listed, _, -, path⟩)
      · exact done
      · rcases round.through path (expanded.inside listed) with done | ⟨_, absent, _⟩
        · exact done
        · cases absent
    next =>
      refine (ih round).trans ?_
      rw [List.mem_append]
      constructor
      · rintro ((old | new) | ⟨start, new, count, bound, path⟩)
        · exact .inl old
        · obtain ⟨start, listed, own⟩ := (additive _ _).mp (List.mem_of_mem_filter new)
          exact .inr ⟨start, listed, 1, by omega, .later own (.here position)⟩
        · obtain ⟨first, listed, own⟩ := (additive _ _).mp (List.mem_of_mem_filter new)
          exact .inr ⟨first, listed, count + 1, by omega, .later own path⟩
      · rintro (old | ⟨start, listed, count, bound, path⟩)
        · exact .inl (.inl old)
        · cases path with
          | here => exact .inl (.inl (expanded.inside listed))
          | later first rest =>
            rcases round.through rest (stepped start listed first) with
              done | ⟨other, new, fewer, less, path⟩
            · exact .inl (List.mem_append.mp done)
            · exact .inr ⟨other, new, fewer, by omega, path⟩

theorem Additive.reach (additive : Additive step) (fuel : Nat) :
    Additive fun starts => Positions.reach step fuel starts starts := by
  have spec (starts : Positions) (position : Nat) :
      position ∈ Positions.reach step fuel starts starts ↔
        ∃ start ∈ starts, ∃ count ≤ fuel, Reaches step count start position := by
    rw [mem_reach additive ⟨List.Subset.refl _, fun _ present => .inl present⟩]
    refine ⟨?_, .inr⟩
    rintro (present | path)
    · exact ⟨position, present, 0, Nat.zero_le _, .here position⟩
    · exact path
  intro starts position
  simp only [spec, List.mem_singleton, exists_eq_left]

end Positions

end SchemaSampler
