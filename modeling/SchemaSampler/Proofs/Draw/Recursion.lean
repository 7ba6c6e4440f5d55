import SchemaSampler.Proofs.Draw.Generators
import SchemaSampler.Sampler

/-!
# Recursion through references

A reference tests the depth, then draws the body in its slot one reference deeper. `expansion` is
that step and `unfolded` the recursion it makes, without any budget: after a number of nested
references an arbitrary draw stands in for the rest. A budget that the depth limit leaves gives the
same draws, so the depth test alone ends every recursion.

Results:
1. `drawWithin_meets`: the invariant, by induction on the budget.
2. `draw_yields`: what bodies keep, draws have.
3. `draw_ends`: every draw ends, restores the depth, stays within the depth limit and reports no
   other limit.
-/

namespace SchemaSampler

namespace Draw

/-- Deeper than a bound an alarm takes the place of the draw. -/
def watched {α : Type} (bound : Nat) (alarm draw : Draw α) : Draw α := fun cursor =>
  if bound < cursor.depth then alarm cursor else draw cursor

end Draw

namespace Generator

open Draw

/-! ## Unfolding references -/

/-- What a reference does when `draw` draws the body in its slot. -/
def expansion (options : Options) (bodies : Bodies) (draw : Generator → Draw Json) (slot : Nat) :
    Draw Json := do
  let inside ← Draw.depth
  if options.limits.maxDepth ≤ inside then Draw.fail (.recursionLimit options.limits.maxDepth)
  else do
    let body ← Draw.ofExcept (bodyIn bodies slot)
    Draw.deeper (draw body)

/-- Draws bodies up to a number of references inside each other, each behind `guard`; what lies
beyond is arbitrary. -/
def unfolded (options : Options) (bodies : Bodies) (guard : Draw Json → Draw Json)
    (beyond : Generator → Draw Json) : (nesting : Nat) → Generator → Draw Json
  | 0 => beyond
  | nesting + 1 => fun generator => guard (generator.drawWith options
      (expansion options bodies (unfolded options bodies guard beyond nesting)))

section Expansion

variable {options : Options} {bodies : Bodies} {depth : Nat} {allowed : SampleError → Prop}
  {post : Json → Prop} {expand : Draw Json} {draw : Generator → Draw Json} {slot : Nat}

theorem expansion_at_limit (deep : options.limits.maxDepth ≤ depth) (source : Source) :
    expansion options bodies draw slot ⟨source, depth⟩ =
      Draw.fail (.recursionLimit options.limits.maxDepth) ⟨source, depth⟩ := by
  show (if options.limits.maxDepth ≤ depth then _ else _ : Draw Json) ⟨source, depth⟩ = _
  rw [if_pos deep]

theorem expansion_below_limit (shallow : depth < options.limits.maxDepth) (source : Source) :
    expansion options bodies draw slot ⟨source, depth⟩ =
      (Draw.ofExcept (bodyIn bodies slot) >>= fun body => Draw.deeper (draw body))
        ⟨source, depth⟩ := by
  show (if options.limits.maxDepth ≤ depth then _ else _ : Draw Json) ⟨source, depth⟩ = _
  rw [if_neg (Nat.not_le_of_lt shallow)]

/-- Bodies are looked up, then drawn one reference deeper. -/
theorem body_meets {draw twin : Generator → Draw Json}
    (unbound : bodies[slot]? = none → ∀ name, allowed (.unboundDefinition name))
    (inside : ∀ body, bodies[slot]? = some body →
      Meets (depth + 1) allowed post (draw body) (twin body)) :
    Meets depth allowed post
      (Draw.ofExcept (bodyIn bodies slot) >>= fun body => Draw.deeper (draw body))
      (Draw.ofExcept (bodyIn bodies slot) >>= fun body => Draw.deeper (twin body)) := by
  unfold bodyIn
  cases found : bodies[slot]? with
  | none => exact fail_meets (unbound found _)
  | some body => exact deeper_meets (inside body found)

end Expansion

/-! ## Budgets and depths -/

section Budgets

variable {options : Options} {bodies : Bodies} {allowed : SampleError → Prop}
  {reach : Nat → Json → Prop} {guard : Draw Json → Draw Json} {beyond : Generator → Draw Json}

/-- The values of slots contain what their bodies yield. -/
def Closed (options : Options) (bodies : Bodies) (reach : Nat → Json → Prop) : Prop :=
  ∀ slot body value, bodies[slot]? = some body → body.Yields options reach value → reach slot value

/-- A budget that the depth limit leaves draws the same as the unfolded recursion. -/
theorem drawWithin_meets
    (harmless : ∀ error,
      (∀ limit, error = .recursionLimit limit → limit = options.limits.maxDepth) → allowed error)
    (closed : Closed options bodies reach) {bound : Nat} (covers : options.limits.maxDepth ≤ bound)
    (transparent : ∀ draw cursor, cursor.depth ≤ bound → guard draw cursor = draw cursor)
    {budget depth nesting : Nat} (left : budget = options.limits.maxDepth - depth)
    (inside : depth ≤ bound) (enough : budget < nesting) (generator : Generator) :
    Meets depth allowed (generator.Yields options reach)
      (drawWithin options bodies budget generator)
      (unfolded options bodies guard beyond nesting generator) := by
  have others : ∀ error : SampleError, error.IsOwn → allowed error := fun error own =>
    harmless error fun limit same => absurd same (own.ne_recursionLimit limit)
  induction budget generalizing depth nesting generator with
  | zero =>
    cases nesting with
    | zero => exact absurd enough (Nat.lt_irrefl 0)
    | succ nesting =>
      -- The budget ends at the limit, where both draws fail instead of following a reference.
      refine Meets.congr (drawWith_meets others fun slot _ => ?_) (fun _ => rfl)
        fun source => transparent _ _ inside
      have limit : Meets depth allowed (reach slot)
          (Draw.fail (.recursionLimit options.limits.maxDepth))
          (Draw.fail (.recursionLimit options.limits.maxDepth)) :=
        fail_meets (harmless _ fun limit same => (SampleError.recursionLimit.inj same).symm)
      exact limit.congr (fun _ => rfl) (expansion_at_limit (by omega))
  | succ budget ih =>
    cases nesting with
    | zero => exact absurd enough (Nat.not_lt_zero _)
    | succ nesting =>
      refine Meets.congr (drawWith_meets others fun slot _ => ?_) (fun _ => rfl)
        fun source => transparent _ _ inside
      refine Meets.congr (body_meets (fun _ _ => harmless _ nofun) fun body found => ?_) (fun _ => rfl)
        (expansion_below_limit (by omega))
      exact (ih (by omega) (by omega) (Nat.lt_of_succ_lt_succ enough) body).mono
        fun value yielded => closed slot body value found yielded

/-- Draws restore the depth, fail with allowed errors only and give what their generators yield. -/
theorem draw_meets
    (harmless : ∀ error,
      (∀ limit, error = .recursionLimit limit → limit = options.limits.maxDepth) → allowed error)
    (closed : Closed options bodies reach) (depth : Nat) (generator : Generator) :
    Meets depth allowed (generator.Yields options reach) (draw options bodies generator)
      (draw options bodies generator) := by
  have meets : Meets depth allowed (generator.Yields options reach)
      (drawWithin options bodies (options.limits.maxDepth - depth) generator)
      (unfolded options bodies (fun draw => draw) (fun _ => Draw.fail (.defect .depthBelowZero))
        (options.limits.maxDepth - depth + 1) generator) :=
    drawWithin_meets harmless closed (Nat.le_max_right depth _) (fun _ _ _ => rfl) rfl
      (Nat.le_max_left _ _) (Nat.lt_succ_self _) generator
  exact meets.diagonal.congr (fun _ => rfl) fun _ => rfl

/-- What bodies keep, draws have. -/
theorem draw_yields (closed : Closed options bodies reach) {generator : Generator}
    {cursor : Cursor} {value : Json}
    (drawn : (draw options bodies generator cursor).1 = .ok value) :
    generator.Yields options reach value := by
  have meets : Meets cursor.depth (fun _ => True) (generator.Yields options reach)
      (draw options bodies generator) (draw options bodies generator) :=
    draw_meets (fun _ _ => trivial) closed cursor.depth generator
  exact meets.holds drawn

end Budgets

/-- The recursion equation of draws: a reference tests the depth and draws the body in its slot. -/
theorem draw_eq (options : Options) (bodies : Bodies) (generator : Generator) :
    draw options bodies generator =
      generator.drawWith options (expansion options bodies (draw options bodies)) := by
  have closed : Closed options bodies fun _ _ => True := fun _ _ _ _ _ => trivial
  funext cursor
  obtain ⟨source, depth⟩ := cursor
  have meets : Meets depth (fun _ => True) (generator.Yields options fun _ _ => True)
      (drawWithin options bodies (options.limits.maxDepth - depth) generator)
      (generator.drawWith options (expansion options bodies (draw options bodies))) := by
    cases left : options.limits.maxDepth - depth with
    | zero =>
      refine drawWith_meets (fun _ _ => trivial) fun slot _ => ?_
      exact (fail_meets trivial).congr (fun _ => rfl) (expansion_at_limit (by omega))
    | succ budget =>
      refine drawWith_meets (fun _ _ => trivial) fun slot _ => ?_
      refine Meets.congr (body_meets (fun _ _ => trivial) fun body _ => ?_) (fun _ => rfl)
        (expansion_below_limit (by omega))
      have rest : budget = options.limits.maxDepth - (depth + 1) := by omega
      have inside : Meets (depth + 1) (fun _ => True) (body.Yields options fun _ _ => True)
          (draw options bodies body) (draw options bodies body) :=
        draw_meets (fun _ _ => trivial) closed (depth + 1) body
      exact (inside.mono fun _ _ => trivial).congr (fun _ => by rw [rest]; rfl) fun _ => rfl
  exact meets.agree source

/-- Every draw follows the recursion of references and ends: what stands in beyond the references
that the depth limit leaves never matters. It restores the depth, also on an error; an alarm above
the limit stays silent throughout; and the limit that it reports is the one it has. -/
theorem draw_ends (options : Options) (bodies : Bodies) (generator : Generator)
    (cursor : Cursor) :
    draw options bodies generator =
      generator.drawWith options (expansion options bodies (draw options bodies)) ∧
    (∀ beyond nesting, options.limits.maxDepth - cursor.depth < nesting →
      unfolded options bodies (fun draw => draw) beyond nesting generator cursor =
        draw options bodies generator cursor) ∧
    (draw options bodies generator cursor).2.depth = cursor.depth ∧
    (∀ alarm beyond nesting, options.limits.maxDepth - cursor.depth < nesting →
      unfolded options bodies
          (Draw.watched (max cursor.depth options.limits.maxDepth) alarm) beyond nesting generator
          cursor =
        draw options bodies generator cursor) ∧
    ∀ limit, (draw options bodies generator cursor).1 = .error (.recursionLimit limit) →
      limit = options.limits.maxDepth := by
  have closed : Closed options bodies fun _ _ => True := fun _ _ _ _ _ => trivial
  obtain ⟨source, depth⟩ := cursor
  let honest : SampleError → Prop := fun error =>
    ∀ limit, error = .recursionLimit limit → limit = options.limits.maxDepth
  have meets : Meets depth honest (generator.Yields options fun _ _ => True)
      (draw options bodies generator) (draw options bodies generator) :=
    draw_meets (fun _ honest => honest) closed depth generator
  have cut : ∀ guard : Draw Json → Draw Json, (∀ draw cursor,
      cursor.depth ≤ max depth options.limits.maxDepth → guard draw cursor = draw cursor) →
      ∀ beyond nesting, options.limits.maxDepth - depth < nesting →
      unfolded options bodies guard beyond nesting generator ⟨source, depth⟩ =
        draw options bodies generator ⟨source, depth⟩ := by
    intro guard transparent beyond nesting enough
    -- A transparent guard and whatever stands beyond the nesting drop out of the agreement.
    have same : Meets depth honest (generator.Yields options fun _ _ => True)
        (drawWithin options bodies (options.limits.maxDepth - depth) generator)
        (unfolded options bodies guard beyond nesting generator) :=
      drawWithin_meets (fun _ honest => honest) closed (Nat.le_max_right depth _) transparent rfl
        (Nat.le_max_left _ _) enough generator
    exact (same.agree source).symm
  refine ⟨draw_eq options bodies generator, cut _ fun _ _ _ => rfl, meets.depth_eq source,
    fun alarm => ?_, fun limit failed => ?_⟩
  · exact cut _ fun draw cursor inside => if_neg (Nat.not_lt_of_le inside)
  · exact meets.allows failed limit rfl

end Generator

end SchemaSampler
