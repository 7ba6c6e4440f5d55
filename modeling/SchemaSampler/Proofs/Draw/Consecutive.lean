import SchemaSampler.Proofs.Draw.Drawn

/-!
# Consecutive draws

The fields of a record are drawn one after the other from one source. `Draw.InTurn` names all
their values at once, with the states in which the first draw begins and the last one ends.

Results:
1. `Draw.bind_eq_ok`: a successful sequence of two draws.
2. `Generator.draw_map_eq_ok`, `draw_record_eq_ok`: the draws that a mapped value and a record
   are made of.
3. `constants_inTurn`: constants read nothing.
-/

namespace SchemaSampler

namespace Draw

variable {α β : Type}

theorem bind_eq_ok {draw : Draw β} {next : β → Draw α} {before after : Cursor} {result : α}
    (ran : (draw >>= next) before = (.ok result, after)) :
    ∃ value between, draw before = (.ok value, between) ∧
      next value between = (.ok result, after) := by
  cases first : draw before with
  | mk outcome between =>
    cases outcome with
    | ok value => exact ⟨value, between, rfl, (bind_of_ok first).symm.trans ran⟩
    | error error => cases (bind_of_error first).symm.trans ran

/-- The values of draws that begin where the draw before ended. -/
inductive InTurn : List (Draw α) → Cursor → List α → Cursor → Prop
  | nil {cursor : Cursor} : InTurn [] cursor [] cursor
  | cons {draw : Draw α} {draws : List (Draw α)} {cursor between last : Cursor} {value : α}
      {values : List α} :
      draw cursor = (.ok value, between) → InTurn draws between values last →
      InTurn (draw :: draws) cursor (value :: values) last

theorem InTurn.length_eq {draws : List (Draw α)} {cursor last : Cursor} {values : List α}
    (turns : InTurn draws cursor values last) : values.length = draws.length := by
  induction turns with
  | nil => rfl
  | cons _ _ ih => simp [ih]

end Draw

namespace Generator

open Draw

variable {options : Options} {bodies : Bodies} {cursor last : Cursor} {value : Json}

theorem draw_map_eq_ok {inner : Generator} {apply : Json → Json}
    (drawn : draw options bodies (.map inner apply) cursor = (.ok value, last)) :
    ∃ raw, draw options bodies inner cursor = (.ok raw, last) ∧ value = apply raw := by
  rw [draw_eq, drawWith, ← draw_eq] at drawn
  obtain ⟨raw, between, inside, same⟩ := bind_eq_ok drawn
  cases same
  exact ⟨raw, inside, rfl⟩

theorem draw_map_of_ok {inner : Generator} {raw : Json} (apply : Json → Json)
    (drawn : draw options bodies inner cursor = (.ok raw, last)) :
    draw options bodies (.map inner apply) cursor = (.ok (apply raw), last) := by
  rw [draw_eq, drawWith, ← draw_eq]
  exact bind_of_ok drawn

theorem draw_constant : draw options bodies (.constant value) cursor = (.ok value, cursor) := by
  rw [draw_eq]
  rfl

theorem constants_inTurn (values : List Json) :
    InTurn ((values.map constant).map (draw options bodies)) cursor values cursor := by
  induction values with
  | nil => exact .nil
  | cons value rest ih => exact .cons draw_constant ih

theorem depth_of_draw {generator : Generator} {result : Except SampleError Json}
    (ran : draw options bodies generator cursor = (result, last)) : last.depth = cursor.depth := by
  have meets : Meets cursor.depth (fun _ => True) (Draws options bodies cursor.depth generator)
      (drawWith options (expanded options bodies) generator)
      (drawWith options (expanded options bodies) generator) := draws_meets generator
  have restored := meets.depth_eq cursor.source
  rw [draw_eq] at ran
  exact (congrArg (fun outcome => outcome.2.depth) ran).symm.trans restored

/-- Every value is drawn by its generator at the depth of the first draw. -/
theorem draws_of_inTurn {generators : List Generator} {values : List Json}
    (turns : InTurn (generators.map (draw options bodies)) cursor values last) :
    List.Forall₂ (fun generator value => generator.Draws options bodies cursor.depth value)
      generators values := by
  induction generators generalizing cursor values with
  | nil =>
    cases turns
    exact .nil
  | cons generator rest ih =>
    cases turns with
    | cons first turns =>
      refine .cons ⟨cursor.source, congrArg Prod.fst first⟩ ?_
      simpa [depth_of_draw first] using ih turns

theorem drawFields_eq_ok {fields : List (String × Generator)} {before : Entries Json} :
    drawFields options (expanded options bodies) before fields cursor = (.ok value, last) ↔
      ∃ values, InTurn (fields.map fun field => draw options bodies field.2) cursor values last ∧
        value = .obj (Entries.insertAll before ((Entries.names fields).zip values)) := by
  induction fields generalizing before cursor with
  | nil =>
    constructor
    · rintro ⟨⟩
      exact ⟨[], .nil, rfl⟩
    · rintro ⟨values, turns, rfl⟩
      cases turns
      rfl
  | cons field rest ih =>
    rw [drawFields, ← draw_eq]
    constructor
    · intro drawn
      obtain ⟨member, between, first, later⟩ := bind_eq_ok drawn
      obtain ⟨values, turns, same⟩ := ih.mp later
      exact ⟨member :: values, .cons first turns, same⟩
    · rintro ⟨values, turns, rfl⟩
      cases turns with
      | cons first turns => exact (bind_of_ok first).trans (ih.mpr ⟨_, turns, rfl⟩)

/-- A record draws its fields in turn. -/
theorem draw_record_eq_ok {fields : List (String × Generator)} :
    draw options bodies (.record fields) cursor = (.ok value, last) ↔
      ∃ values, InTurn (fields.map fun field => draw options bodies field.2) cursor values last ∧
        value = .obj (Entries.ofList ((Entries.names fields).zip values)) := by
  rw [draw_eq, drawWith]
  exact drawFields_eq_ok

end Generator

end SchemaSampler
