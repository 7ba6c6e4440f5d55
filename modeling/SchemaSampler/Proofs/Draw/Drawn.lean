import SchemaSampler.Proofs.Draw.Recursion

/-!
# What generators have drawn

`Generator.Draws` says that a generator draws a value from some source. A value of a compound
generator is made of values that its parts have drawn, at the same reference depth.

Results:
1. `draws_meets`: the values of a draw are drawn.
2. `Draws.of_choice`, `Draws.of_record`, `Draws.of_dictionary` and the like: the parts of a drawn
   value.
-/

namespace SchemaSampler

namespace Generator

open Draw

/-- Some source makes the generator draw the value at the depth. -/
def Draws (options : Options) (bodies : Bodies) (depth : Nat) (generator : Generator)
    (value : Json) : Prop :=
  ∃ source, (draw options bodies generator ⟨source, depth⟩).1 = .ok value

variable {options : Options} {bodies : Bodies} {depth : Nat} {value : Json}

/-- What the references of a draw expand to. -/
abbrev expanded (options : Options) (bodies : Bodies) : Nat → Draw Json :=
  expansion options bodies (draw options bodies)

theorem draws_meets (generator : Generator) :
    Meets depth (fun _ => True) (Draws options bodies depth generator)
      (generator.drawWith options (expanded options bodies))
      (generator.drawWith options (expanded options bodies)) := by
  have closed : Closed options bodies fun _ _ => True := fun _ _ _ _ _ => trivial
  have meets : Meets depth (fun _ => True) (generator.Yields options fun _ _ => True)
      (draw options bodies generator) (draw options bodies generator) :=
    draw_meets (fun _ _ => trivial) closed depth generator
  rw [← draw_eq]
  intro source
  obtain ⟨result, rest, ran, -, -⟩ := meets source
  refine ⟨result, rest, ran, ran, ?_⟩
  cases result with
  | ok drawn => exact ⟨source, by rw [ran]⟩
  | error => trivial

/-- A specification of the draws of a generator holds of what it has drawn. -/
theorem Draws.holds {generator : Generator} (post : Json → Prop)
    (drawn : generator.Draws options bodies depth value)
    (meets : Meets depth (fun _ => True) post
      (generator.drawWith options (expanded options bodies))
      (generator.drawWith options (expanded options bodies))) : post value := by
  obtain ⟨source, ran⟩ := drawn
  rw [draw_eq] at ran
  exact meets.holds ran

theorem Draws.of_constant {own : Json}
    (drawn : (constant own).Draws options bodies depth value) : value = own :=
  drawn.holds (fun value => value = own) (pure_meets rfl)

theorem Draws.of_choice {label : String} {alternatives : List Generator} {minimal : Option Nat}
    (drawn : (choice label alternatives minimal).Draws options bodies depth value) :
    ∃ alternative ∈ alternatives, alternative.Draws options bodies depth value := by
  refine drawn.holds (fun value => ∃ alternative ∈ alternatives,
    alternative.Draws options bodies depth value) ?_
  refine bind_meets (drawPlace_meets (fun _ => trivial) minimal) fun place _ => ?_
  rw [drawNth_eq]
  cases found : alternatives[place]? with
  | none => exact fail_meets trivial
  | some alternative =>
    exact (draws_meets alternative).mono fun _ own =>
      ⟨alternative, List.mem_of_getElem? found, own⟩

theorem Draws.of_record {fields : List (String × Generator)}
    (drawn : (record fields).Draws options bodies depth value) :
    ∃ members, value = .obj (Entries.ofList members) ∧
      List.Forall₂ (fun field member => field.1 = member.1 ∧
        field.2.Draws options bodies depth member.2) fields members :=
  drawn.holds _ (drawFields_meets_each (fun field _ => draws_meets field.2) [])

theorem Draws.of_dictionary {keys values : Generator} {maxEntries : Nat} {reserved : List String}
    {excluded : List Pattern}
    (drawn : (dictionary keys values maxEntries reserved excluded).Draws options bodies depth value) :
    ∃ members, value = .obj members ∧ ∀ member ∈ members,
      admitsKey options reserved excluded member.1 = true ∧
        keys.Draws options bodies depth (.str member.1) ∧
        values.Draws options bodies depth member.2 := by
  refine drawn.holds (fun value => ∃ members, value = .obj members ∧ ∀ member ∈ members,
    admitsKey options reserved excluded member.1 = true ∧
      keys.Draws options bodies depth (.str member.1) ∧
      values.Draws options bodies depth member.2) ?_
  refine bind_meets (drawSize_meets fun _ => trivial) fun count _ => ?_
  refine (drawEntries_meets count (fun _ => draws_meets keys) (fun _ => draws_meets values)
    []).mono fun _ described => ?_
  obtain ⟨members, same, -, all⟩ := described
  exact ⟨members, same, fun member present => (all member present).resolve_left List.not_mem_nil⟩

theorem Draws.of_map {inner : Generator} {apply : Json → Json}
    (drawn : (map inner apply).Draws options bodies depth value) :
    ∃ raw, inner.Draws options bodies depth raw ∧ value = apply raw := by
  refine drawn.holds (fun value => ∃ raw, inner.Draws options bodies depth raw ∧
    value = apply raw) ?_
  exact bind_meets (draws_meets inner) fun raw own => pure_meets ⟨raw, own, rfl⟩

end Generator

end SchemaSampler
