import SchemaSampler.Proofs.Draw.Recursion

/-!
# References and the numbers of slots

A generator leads to definitions only through the references in it. So its draws depend on the
expansions of the slots that it refers to, and when slots get other numbers it is enough to change
the references.

Results:
1. `Generator.drawWith_renumber`: one generator over renumbered slots.
2. `Generator.drawWithin_renumber`: the whole recursion over renumbered slots.
3. `Generator.draw_bound`: draws never miss a body when every reference has one.
-/

namespace SchemaSampler

namespace Generator

/-! ## References -/

/-- A reference of the pointer to the slot stands in the generator. -/
inductive Refers : Generator → String → Nat → Prop
  | reference {pointer : String} {slot : Nat} : Refers (.reference pointer slot) pointer slot
  | alternative {label : String} {alternatives : List Generator} {alternative : Generator}
      {minimal : Option Nat} {pointer : String} {slot : Nat} : alternative ∈ alternatives →
      Refers alternative pointer slot → Refers (.choice label alternatives minimal) pointer slot
  | items {items : Generator} {least most : Nat} {unique : Bool} {pointer : String} {slot : Nat} :
      Refers items pointer slot → Refers (.array items least most unique) pointer slot
  | component {items : List Generator} {item : Generator} {pointer : String} {slot : Nat} :
      item ∈ items → Refers item pointer slot → Refers (.tuple items) pointer slot
  | field {fields : List (String × Generator)} {field : String × Generator} {pointer : String}
      {slot : Nat} : field ∈ fields → Refers field.2 pointer slot →
      Refers (.record fields) pointer slot
  | keys {keys values : Generator} {maxEntries : Nat} {reserved : List String}
      {excluded : List Pattern} {pointer : String} {slot : Nat} : Refers keys pointer slot →
      Refers (.dictionary keys values maxEntries reserved excluded) pointer slot
  | values {keys values : Generator} {maxEntries : Nat} {reserved : List String}
      {excluded : List Pattern} {pointer : String} {slot : Nat} : Refers values pointer slot →
      Refers (.dictionary keys values maxEntries reserved excluded) pointer slot
  | filter {inner : Generator} {fragment : String} {accepts : Json → Bool} {pointer : String}
      {slot : Nat} : Refers inner pointer slot →
      Refers (.filter inner fragment accepts) pointer slot
  | map {inner : Generator} {apply : Json → Json} {pointer : String} {slot : Nat} :
      Refers inner pointer slot → Refers (.map inner apply) pointer slot

mutual
/-- The generator with other numbers of slots. -/
def renumber (number : Nat → Nat) : Generator → Generator
  | choice label alternatives minimal => choice label (renumberAll number alternatives) minimal
  | array items least most unique => array (renumber number items) least most unique
  | tuple items => tuple (renumberAll number items)
  | record fields => record (renumberFields number fields)
  | dictionary keys values maxEntries reserved excluded =>
    dictionary (renumber number keys) (renumber number values) maxEntries reserved excluded
  | filter inner fragment accepts => filter (renumber number inner) fragment accepts
  | map inner apply => map (renumber number inner) apply
  | reference pointer slot => reference pointer (number slot)
  | generator => generator
termination_by structural generator => generator

def renumberAll (number : Nat → Nat) : List Generator → List Generator
  | [] => []
  | item :: rest => renumber number item :: renumberAll number rest
termination_by structural items => items

def renumberFields (number : Nat → Nat) :
    List (String × Generator) → List (String × Generator)
  | [] => []
  | (name, field) :: rest => (name, renumber number field) :: renumberFields number rest
termination_by structural fields => fields
end

variable {number : Nat → Nat}

theorem renumberAll_eq_map (items : List Generator) :
    renumberAll number items = items.map (renumber number) := by
  induction items with
  | nil => rfl
  | cons item rest ih => rw [renumberAll, ih, List.map_cons]

theorem renumberFields_eq_map (fields : List (String × Generator)) :
    renumberFields number fields = fields.map fun field => (field.1, renumber number field.2) := by
  induction fields with
  | nil => rfl
  | cons field rest ih => rw [renumberFields, ih, List.map_cons]

/-- Only the slots that a generator refers to matter. -/
theorem renumber_eq_self {generator : Generator}
    (fixed : ∀ pointer slot, generator.Refers pointer slot → number slot = slot) :
    generator.renumber number = generator := by
  induction generator using Generator.induction with
  | choice label alternatives minimal ih =>
    have each : ∀ alternative ∈ alternatives, alternative.renumber number = alternative :=
      fun alternative present => ih alternative present fun pointer slot refers =>
        fixed pointer slot (.alternative present refers)
    rw [renumber, renumberAll_eq_map, List.map_congr_left each, List.map_id']
  | array items least most unique ih =>
    rw [renumber, ih fun pointer slot refers => fixed pointer slot (.items refers)]
  | tuple items ih =>
    have each : ∀ item ∈ items, item.renumber number = item :=
      fun item present => ih item present fun pointer slot refers =>
        fixed pointer slot (.component present refers)
    rw [renumber, renumberAll_eq_map, List.map_congr_left each, List.map_id']
  | record fields ih =>
    have each : ∀ field ∈ fields, (field.1, field.2.renumber number) = field :=
      fun field present => congrArg (Prod.mk field.1) (ih field present
        fun pointer slot refers => fixed pointer slot (.field present refers))
    rw [renumber, renumberFields_eq_map, List.map_congr_left each, List.map_id']
  | dictionary keys values maxEntries reserved excluded keysIh valuesIh =>
    rw [renumber, keysIh fun pointer slot refers => fixed pointer slot (.keys refers),
      valuesIh fun pointer slot refers => fixed pointer slot (.values refers)]
  | filter inner fragment accepts ih =>
    rw [renumber, ih fun pointer slot refers => fixed pointer slot (.filter refers)]
  | map inner apply ih =>
    rw [renumber, ih fun pointer slot refers => fixed pointer slot (.map refers)]
  | reference pointer slot => rw [renumber, fixed pointer slot .reference]
  | _ => rfl

/-! ## Draws over renumbered slots -/

section Draws

variable {options : Options} {expand twin : Nat → Draw Json}

theorem drawAll_renumber {items : List Generator}
    (each : ∀ item ∈ items,
      (item.renumber number).drawWith options expand = item.drawWith options twin) :
    drawAll options expand (renumberAll number items) = drawAll options twin items := by
  induction items with
  | nil => rfl
  | cons item rest ih =>
    rw [renumberAll, drawAll, drawAll, each item List.mem_cons_self,
      ih fun other later => each other (List.mem_cons_of_mem _ later)]

theorem drawFields_renumber {fields : List (String × Generator)}
    (each : ∀ field ∈ fields,
      (field.2.renumber number).drawWith options expand = field.2.drawWith options twin)
    (members : Entries Json) :
    drawFields options expand members (renumberFields number fields) =
      drawFields options twin members fields := by
  induction fields generalizing members with
  | nil => rfl
  | cons field rest ih =>
    obtain ⟨name, field⟩ := field
    rw [renumberFields, drawFields, drawFields, each (name, field) List.mem_cons_self]
    refine congrArg (Bind.bind _) (funext fun value => ?_)
    exact ih (fun other later => each other (List.mem_cons_of_mem _ later)) _

theorem drawNth_renumber {alternatives : List Generator}
    (each : ∀ alternative ∈ alternatives,
      (alternative.renumber number).drawWith options expand = alternative.drawWith options twin)
    (place : Nat) :
    drawNth options expand place (renumberAll number alternatives) =
      drawNth options twin place alternatives := by
  rw [drawNth_eq, drawNth_eq, renumberAll_eq_map, List.getElem?_map]
  cases found : alternatives[place]? with
  | none => rfl
  | some alternative => exact each alternative (List.mem_of_getElem? found)

/-- A renumbered generator draws the same if its references expand to the same. -/
theorem drawWith_renumber {generator : Generator}
    (same : ∀ pointer slot, generator.Refers pointer slot → expand (number slot) = twin slot) :
    (generator.renumber number).drawWith options expand = generator.drawWith options twin := by
  induction generator using Generator.induction with
  | choice label alternatives minimal ih =>
    have each := fun alternative present => ih alternative present fun pointer slot refers =>
      same pointer slot (.alternative present refers)
    rw [renumber, drawWith, drawWith, renumberAll_eq_map, List.length_map, ← renumberAll_eq_map]
    exact congrArg (Bind.bind _) (funext fun place => drawNth_renumber each place)
  | array items least most unique ih =>
    rw [renumber, drawWith, drawWith, ih fun pointer slot refers => same pointer slot (.items refers)]
  | tuple items ih =>
    have each := fun item present => ih item present fun pointer slot refers =>
      same pointer slot (.component present refers)
    rw [renumber, drawWith, drawWith, drawAll_renumber each]
  | record fields ih =>
    have each := fun field present => ih field present fun pointer slot refers =>
      same pointer slot (.field present refers)
    rw [renumber, drawWith, drawWith, drawFields_renumber each]
  | dictionary keys values maxEntries reserved excluded keysIh valuesIh =>
    rw [renumber, drawWith, drawWith,
      keysIh fun pointer slot refers => same pointer slot (.keys refers),
      valuesIh fun pointer slot refers => same pointer slot (.values refers)]
  | filter inner fragment accepts ih =>
    rw [renumber, drawWith, drawWith,
      ih fun pointer slot refers => same pointer slot (.filter refers)]
  | map inner apply ih =>
    rw [renumber, drawWith, drawWith, ih fun pointer slot refers => same pointer slot (.map refers)]
  | reference pointer slot => exact same pointer slot .reference
  | _ => rfl

theorem drawWith_congr {generator : Generator}
    (same : ∀ pointer slot, generator.Refers pointer slot → expand slot = twin slot) :
    generator.drawWith options expand = generator.drawWith options twin := by
  have renumbered : generator.renumber (fun slot => slot) = generator :=
    renumber_eq_self fun _ _ _ => rfl
  have drawn : (generator.renumber fun slot => slot).drawWith options expand =
      generator.drawWith options twin := drawWith_renumber same
  rwa [renumbered] at drawn

end Draws

/-! ## Recursion over renumbered slots -/

/-- Every reference in the generator leads to one of the bodies. -/
def Bound (bodies : Bodies) (generator : Generator) : Prop :=
  ∀ pointer slot, generator.Refers pointer slot → slot < bodies.length

/-- Bodies of renumbered slots draw the same as those before. -/
theorem drawWithin_renumber {options : Options} {bodies renumbered : Bodies}
    (bound : ∀ body ∈ bodies, body.Bound bodies)
    (moved : ∀ slot body, bodies[slot]? = some body →
      renumbered[number slot]? = some (body.renumber number))
    (budget : Nat) {generator : Generator} (own : generator.Bound bodies) :
    drawWithin options renumbered budget (generator.renumber number) =
      drawWithin options bodies budget generator := by
  induction budget generalizing generator with
  | zero => exact drawWith_renumber fun _ _ _ => rfl
  | succ budget ih =>
    refine drawWith_renumber fun pointer slot refers => ?_
    have found := List.getElem?_eq_getElem (own pointer slot refers)
    have there := moved slot _ found
    unfold bodyIn
    rw [found, there]
    exact congrArg Draw.deeper (ih (bound _ (List.getElem_mem _)))

theorem draw_renumber {options : Options} {bodies renumbered : Bodies}
    (bound : ∀ body ∈ bodies, body.Bound bodies)
    (moved : ∀ slot body, bodies[slot]? = some body →
      renumbered[number slot]? = some (body.renumber number))
    {generator : Generator} (own : generator.Bound bodies) :
    draw options renumbered (generator.renumber number) = draw options bodies generator := by
  funext cursor
  exact congrFun (drawWithin_renumber bound moved _ own) cursor

/-! ## Bodies that are there -/

open Draw in
theorem drawWithin_bound {options : Options} {bodies : Bodies}
    (bound : ∀ body ∈ bodies, body.Bound bodies) (budget : Nat) {generator : Generator}
    (own : generator.Bound bodies) (depth : Nat) :
    Meets depth (fun error => ∀ name, error ≠ .unboundDefinition name)
      (generator.Yields options fun _ _ => True)
      (drawWithin options bodies budget generator) (drawWithin options bodies budget generator) := by
  induction budget generalizing generator depth with
  | zero =>
    refine drawWith_meets (fun _ own => own.ne_unboundDefinition) fun slot _ => ?_
    exact fail_meets nofun
  | succ budget ih =>
    -- Slots without a body are never asked for, so anything may stand for their expansion.
    let expand := fun slot => do
      let body ← Draw.ofExcept (bodyIn bodies slot)
      Draw.deeper (drawWithin options bodies budget body)
    let guarded := fun slot =>
      if slot < bodies.length then expand slot else Draw.fail (.defect .depthBelowZero)
    have same : drawWithin options bodies (budget + 1) generator =
        generator.drawWith options guarded :=
      drawWith_congr fun pointer slot refers => (if_pos (own pointer slot refers)).symm
    rw [same]
    refine drawWith_meets (fun _ own => own.ne_unboundDefinition) fun slot _ => ?_
    unfold guarded
    split
    next inside =>
      refine body_meets (fun missing => ?_) fun body found => ?_
      · exact absurd (List.getElem?_eq_none_iff.mp missing) (Nat.not_le_of_lt inside)
      · exact (ih (bound body (List.mem_of_getElem? found)) (depth + 1)).mono fun _ _ => trivial
    next => exact fail_meets nofun

/-- When every reference leads to a body, no draw misses one. -/
theorem draw_bound {options : Options} {bodies : Bodies}
    (bound : ∀ body ∈ bodies, body.Bound bodies) {generator : Generator}
    (own : generator.Bound bodies) (cursor : Cursor) (name : String) :
    (draw options bodies generator cursor).1 ≠ .error (.unboundDefinition name) := by
  intro failed
  exact (drawWithin_bound bound _ own cursor.depth).allows failed name rfl

end Generator

end SchemaSampler
