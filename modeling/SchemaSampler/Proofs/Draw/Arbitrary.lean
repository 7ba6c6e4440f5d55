import SchemaSampler.Proofs.Draw.Recursion

/-!
# Arbitrary values

Any JSON value may come out of an unconstrained draw, within limits: one level of nesting is left
less for the items of an array and the members of an object, sizes and lengths are drawn up to
their limits, and synthetic keys are skipped. `Json.Unconstrained` says so level by level, as the
draw goes. Here the limits are those of the whole value: `Json.depth` bounds its nesting, and
`Json.KeepsTo` holds of every part of it.

Results:
1. `Json.Unconstrained.depth_le`, `Json.Unconstrained.keepsTo`: from levels to the whole value.
2. `drawArbitrary_deep_meets`: once recursion winds down, only scalars are drawn.
3. `Generator.arbitrary_within_limits`: every draw succeeds and stays within the limits.
-/

namespace SchemaSampler

namespace Json

/-! ## Parts of values -/

/-- The first value is the second one or stands somewhere inside it. -/
inductive Part (part : Json) : Json → Prop
  | self : Part part part
  | item {items : List Json} {item : Json} : item ∈ items → Part part item → Part part (.arr items)
  | member {members : Entries Json} {member : String × Json} : member ∈ members →
      Part part member.2 → Part part (.obj members)

theorem itemsDepth_le {items : List Json} {bound : Nat}
    (each : ∀ item ∈ items, item.depth ≤ bound) : itemsDepth items ≤ bound := by
  induction items with
  | nil => exact Nat.zero_le bound
  | cons item rest ih =>
    rw [itemsDepth]
    exact Nat.max_le.mpr ⟨each item List.mem_cons_self,
      ih fun other later => each other (List.mem_cons_of_mem _ later)⟩

theorem membersDepth_le {members : Entries Json} {bound : Nat}
    (each : ∀ member ∈ members, member.2.depth ≤ bound) : membersDepth members ≤ bound := by
  induction members with
  | nil => exact Nat.zero_le bound
  | cons member rest ih =>
    rw [membersDepth]
    exact Nat.max_le.mpr ⟨each member List.mem_cons_self,
      ih fun other later => each other (List.mem_cons_of_mem _ later)⟩

/-! ## The limits of a value -/

/-- An array or object has at most `maxEntries` entries; a string has at most `maxLength`
characters, and so has every name of an object, none of which is synthetic. -/
def KeepsTo (keys : SyntheticKeys) (maxEntries maxLength : Nat) : Json → Prop
  | str text => text.length ≤ maxLength
  | arr items => items.length ≤ maxEntries
  | obj members => members.length ≤ maxEntries ∧
      ∀ member ∈ members, keys.contains member.1 = false ∧ member.1.length ≤ maxLength
  | _ => True

namespace Unconstrained

variable {keys : SyntheticKeys} {maxEntries maxLength depth : Nat} {value : Json}

theorem depth_le (unconstrained : value.Unconstrained keys maxEntries maxLength depth) :
    value.depth ≤ depth := by
  induction unconstrained with
  | null | bool | int | float | str => exact Nat.zero_le _
  | arr _ _ ih => exact Nat.succ_le_succ (itemsDepth_le ih)
  | obj _ _ _ ih => exact Nat.succ_le_succ (membersDepth_le ih)

/-- What a level keeps to does not depend on the level, so all parts keep to it. -/
theorem keepsTo {part : Json} (unconstrained : value.Unconstrained keys maxEntries maxLength depth)
    (inside : part.Part value) : part.KeepsTo keys maxEntries maxLength := by
  induction inside generalizing depth with
  | self =>
    cases unconstrained with
    | null | bool | int | float => trivial
    | str short => exact short
    | arr few _ => exact few
    | obj few names _ => exact ⟨few, names⟩
  | item present _ ih =>
    cases unconstrained with
    | arr _ items => exact ih (items _ present)
  | member present _ ih =>
    cases unconstrained with
    | obj _ _ members => exact ih (members _ present)

end Unconstrained

end Json

/-! ## Arbitrary draws -/

section Deep

open Draw

variable {depth : Nat} {allowed : SampleError → Prop}

/-- Once recursion winds down, no array or object is among the kinds. -/
theorem drawArbitrary_deep_meets {options : Options}
    (deep : options.limits.windDownDepth ≤ depth) (maxEntries maxLength nesting : Nat) :
    Meets depth allowed (Json.Unconstrained options.keys maxEntries maxLength 0)
      (drawArbitrary options maxEntries maxLength nesting)
      (drawArbitrary options maxEntries maxLength nesting) := by
  cases nesting with
  | zero => exact drawArbitrary_meets rfl (fun _ _ => rfl) maxEntries 0
  | succ nesting =>
    rw [drawArbitrary]
    refine bind_meets depth_meets fun inside same => ?_
    rw [same, if_pos deep]
    refine bind_meets (position_meets fun none => absurd none (by decide)) fun kind below => ?_
    rw [if_pos below]
    exact drawScalar_meets maxEntries maxLength 0 kind options.keys

end Deep

namespace Generator

open Draw

/-- An unconstrained draw always gives a value. Its arrays and objects stand at most `nesting` deep
inside each other, and there are none when recursion winds down; and every part of the value, on
whatever level, keeps to the limits of entries, lengths and keys. -/
theorem arbitrary_within_limits (options : Options) (bodies : Bodies)
    (nesting maxEntries maxLength : Nat) (cursor : Cursor) :
    ∃ value rest, draw options bodies (.arbitrary nesting maxEntries maxLength) cursor =
        (.ok value, ⟨rest, cursor.depth⟩) ∧
      value.depth ≤ nesting ∧
      (options.limits.windDownDepth ≤ cursor.depth → value.depth = 0) ∧
      ∀ part : Json, part.Part value → part.KeepsTo options.keys maxEntries maxLength := by
  obtain ⟨source, depth⟩ := cursor
  -- No error is allowed, so the outcome is a value.
  have meets : Meets depth (fun _ => False)
      (Json.Unconstrained options.keys maxEntries maxLength nesting)
      (drawArbitrary options maxEntries maxLength nesting)
      (drawArbitrary options maxEntries maxLength nesting) :=
    drawArbitrary_meets rfl (fun _ _ => rfl) maxEntries nesting
  obtain ⟨result, rest, ran, -, outcome⟩ := meets source
  cases result with
  | error => exact outcome.elim
  | ok value =>
    rw [draw_eq, drawWith]
    refine ⟨value, rest, ran, outcome.depth_le, fun deep => ?_, fun part => outcome.keepsTo⟩
    have scalar : Meets depth (fun _ => False)
        (Json.Unconstrained options.keys maxEntries maxLength 0)
        (drawArbitrary options maxEntries maxLength nesting)
        (drawArbitrary options maxEntries maxLength nesting) :=
      drawArbitrary_deep_meets deep maxEntries maxLength nesting
    have drawn : (drawArbitrary options maxEntries maxLength nesting ⟨source, depth⟩).1 =
        .ok value := by rw [ran]
    exact Nat.le_zero.mp (scalar.holds drawn).depth_le

end Generator

end SchemaSampler
