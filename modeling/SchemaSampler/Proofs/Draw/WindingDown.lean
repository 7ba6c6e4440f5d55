import SchemaSampler.Proofs.Compile.Slots
import SchemaSampler.Proofs.Draw.Recursion

/-!
# Winding down bounds recursion

Up to the depth at which it winds down a draw may follow any reference; from there on it follows
forced ones only. Where every body forces slots of lower rank, the rank of a slot bounds the
references that a draw of it can still follow, so the depth limit stays out of reach.

Results:
1. `Generator.draw_within_rank`: the invariant of nested draws, that a forced slot has room for
   its rank.
2. `Sampler.winding_down_bounds_recursion`: no draw of a compiled sampler meets the depth limit.
-/

namespace SchemaSampler

/-- Ranks of slots that fall along forced references and stay below a bound. -/
structure Generator.Ranked (bodies : Generator.Bodies) (rank : Nat → Nat) (bound : Nat) : Prop where
  bounded : ∀ slot, slot < bodies.length → rank slot ≤ bound
  falls : ∀ slot body forced, bodies[slot]? = some body → body.Forces forced →
    rank forced < rank slot

namespace Generator

open Draw

variable {options : Options} {bodies : Bodies} {rank : Nat → Nat} {bound : Nat}

/-- A draw that winds down has room for the rank of every slot that it forces. -/
def Room (options : Options) (rank : Nat → Nat) (bound depth : Nat) (generator : Generator) : Prop :=
  options.limits.windDownDepth ≤ depth → ∀ slot, generator.Forces slot →
    rank slot + depth < options.limits.windDownDepth + bound

/-- Bodies of slots that may be expanded have room one reference deeper. -/
theorem Ranked.room_body (ranked : Ranked bodies rank bound) {depth slot : Nat} {body : Generator}
    (found : bodies[slot]? = some body)
    (allowed : options.limits.windDownDepth ≤ depth →
      rank slot + depth < options.limits.windDownDepth + bound) :
    Room options rank bound (depth + 1) body := by
  intro deep forced forces
  have lower := ranked.falls slot body forced found forces
  have inside : slot < bodies.length := (List.getElem?_eq_some_iff.mp found).1
  have bounded := ranked.bounded slot inside
  by_cases before : options.limits.windDownDepth ≤ depth
  · have room := allowed before
    omega
  · -- The first reference that winds down: its slot has at most the greatest rank.
    omega

theorem drawWithin_within_rank (ranked : Ranked bodies rank bound)
    (enough : options.limits.windDownDepth + bound ≤ options.limits.maxDepth) {budget depth : Nat}
    (left : budget = options.limits.maxDepth - depth) {generator : Generator}
    (room : Room options rank bound depth generator) :
    Meets depth (fun error => ∀ limit, error ≠ .recursionLimit limit)
      (generator.Yields options fun _ _ => True)
      (drawWithin options bodies budget generator) (drawWithin options bodies budget generator) := by
  induction budget generalizing depth generator with
  | zero =>
    -- Without a budget the draw winds down, and the room for a forced slot would exceed the limit.
    refine drawWith_meets (fun _ own => own.ne_recursionLimit) fun slot forced => ?_
    have deep : options.limits.windDownDepth ≤ depth := by omega
    have inside := room deep slot (forced deep)
    omega
  | succ budget ih =>
    refine drawWith_meets (fun _ own => own.ne_recursionLimit) fun slot forced => ?_
    refine body_meets (fun _ _ => nofun) fun body found => ?_
    refine (ih (by omega) ?_).mono fun _ _ => trivial
    exact ranked.room_body found fun deep => room deep slot (forced deep)

theorem draw_within_rank (ranked : Ranked bodies rank bound)
    (enough : options.limits.windDownDepth + bound ≤ options.limits.maxDepth) {depth : Nat}
    {generator : Generator} (room : Room options rank bound depth generator) :
    Meets depth (fun error => ∀ limit, error ≠ .recursionLimit limit)
      (generator.Yields options fun _ _ => True)
      (draw options bodies generator) (draw options bodies generator) :=
  (drawWithin_within_rank ranked enough rfl room).congr (fun _ => rfl) fun _ => rfl

/-- At the top every body has room. -/
theorem Ranked.room_top (ranked : Ranked bodies rank bound) {slot : Nat} {body : Generator}
    (found : bodies[slot]? = some body) : Room options rank bound 0 body := by
  intro top forced forces
  have lower := ranked.falls slot body forced found forces
  have inside : slot < bodies.length := (List.getElem?_eq_some_iff.mp found).1
  have bounded := ranked.bounded slot inside
  omega

theorem Room.map {depth : Nat} {inner : Generator} (room : Room options rank bound depth inner)
    (apply : Json → Json) : Room options rank bound depth (.map inner apply) := by
  intro deep slot forces
  cases forces with
  | map forces => exact room deep slot forces

end Generator

/-! ## Samplers -/

namespace Sampler

/-- Where the depth limit leaves room for the ranks after winding down begins, no draw of a
compiled sampler, raw or hoisted, meets it. -/
theorem winding_down_bounds_recursion {schema : Json} {options : Options} {registry : Registry}
    {sampler : Sampler} (compiled : compile schema options registry = .ok sampler)
    {rank : Nat → Nat} {bound : Nat}
    (ranked : Generator.Ranked sampler.slots.bodies rank bound)
    (enough : options.limits.windDownDepth + bound ≤ options.limits.maxDepth)
    (source : Source) (limit : Nat) :
    (sampler.draw source).1 ≠ .error (.recursionLimit limit) ∧
      (sampler.hoisted.draw source).1 ≠ .error (.recursionLimit limit) := by
  obtain ⟨document, -, -, found, rfl⟩ := compile_eq_ok.mp compiled
  have room : Generator.Room sampler.options rank bound 0 sampler.entry := ranked.room_top found
  refine ⟨fun failed => ?_, fun failed => ?_⟩
  · exact (Generator.draw_within_rank ranked enough room).allows failed limit rfl
  · have hoistedRoom := room.map (hoist sampler.options.keys)
    exact (Generator.draw_within_rank ranked enough hoistedRoom).allows failed limit rfl

/-- Lists of trees beside a leaf that every tree has. -/
def treeSchema : Json :=
  .obj [("definitions", .obj [("leaf", .obj [("type", .str "null")])]),
    ("items", .arr [.obj [("$ref", .str "#/definitions/leaf")],
      .obj [("items", .obj [("$ref", .str "#")]), ("type", .str "array")]]),
    ("type", .str "array")]

def treeBody : Generator :=
  .tuple [.reference "#/definitions/leaf" 1, .array (.reference "#" 0) 0 8 false]

def treeSampler : Sampler := ⟨treeBody, ⟨["#", "leaf"], [treeBody, .constant .null]⟩, {}⟩

theorem tree_compiled : compile treeSchema {} [] = .ok treeSampler := by cbv

theorem tree_ranked : Generator.Ranked treeSampler.slots.bodies (fun slot => 1 - slot) 1 := by
  refine ⟨fun slot _ => Nat.sub_le 1 slot, fun slot body forced found forces => ?_⟩
  match slot, found with
  | 0, found =>
    cases found
    cases forces with
    | component present forces =>
      simp only [List.mem_cons, List.not_mem_nil, or_false] at present
      rcases present with rfl | rfl
      · cases forces
        exact Nat.one_pos
      · cases forces with
        | item positive => exact absurd positive (Nat.lt_irrefl 0)
  | 1, found =>
    cases found
    cases forces

theorem tree_draw_meets_no_limit :
    compile treeSchema {} [] = .ok treeSampler ∧
      Generator.Ranked treeSampler.slots.bodies (fun slot => 1 - slot) 1 ∧
      (treeSampler.draw (.cycle #[1, 2, 3])).1 ≠ .error (.recursionLimit 64) ∧
      (treeSampler.hoisted.draw (.cycle #[1, 2, 3])).1 ≠ .error (.recursionLimit 64) :=
  ⟨tree_compiled, tree_ranked, winding_down_bounds_recursion tree_compiled tree_ranked (by decide)
    (.cycle #[1, 2, 3]) 64⟩

end Sampler

end SchemaSampler
