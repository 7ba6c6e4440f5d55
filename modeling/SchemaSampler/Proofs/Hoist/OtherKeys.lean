import SchemaSampler.Proofs.Draw.Simulation
import SchemaSampler.Proofs.Hoist.NoSyntheticKeys
import SchemaSampler.Proofs.Hoist.Rekeyed

/-!
# Generators under other keys

Raw values have synthetic keys at every depth, and hoisting takes them out again. Under two choices
of keys that no draw hits, raw values differ only there. The draws run side by side: generators of
one node give values that hoist to the same one, and whatever a draw decides on a value it decides
on the hoisted one.

Results:
1. `Generator.Alike`: generators whose values hoist alike.
2. `Generator.array_alike`, `choice_alike`, `record_alike` and the others: a lemma for every way to
   put generators together.
3. `Generator.sameField_additional`, `sameField_patterns`, `merged_alike`: the containers.
-/

namespace SchemaSampler

open Draw

/-! ## Keys that no draw hits -/

namespace SyntheticKeys

/-- Every key has more characters than the length. -/
def LongerThan (keys : SyntheticKeys) (length : Nat) : Prop :=
  length < keys.additionalProperties.length ∧ length < keys.patternProperties.length ∧
    length < keys.allOf.length

theorem LongerThan.contains_eq_false {keys : SyntheticKeys} {length : Nat}
    (longer : keys.LongerThan length) {text : String} (short : text.length ≤ length) :
    keys.contains text = false := by
  obtain ⟨additional, patterns, merged⟩ := longer
  refine SyntheticKeys.contains_eq_false.mpr ⟨?_, ?_, ?_⟩
  all_goals
    rintro rfl
    omega

end SyntheticKeys

/-- The options differ only in synthetic keys, which are too long for drawn texts. -/
structure Options.Rekeys (options twinOptions : Options) : Prop where
  others : twinOptions = { options with keys := twinOptions.keys }
  distinct : options.keys.Distinct
  distinctTwin : twinOptions.keys.Distinct
  longer : options.keys.LongerThan options.limits.maxStringLength
  longerTwin : twinOptions.keys.LongerThan options.limits.maxStringLength

namespace Options.Rekeys

variable {options twinOptions : Options} (rekeys : options.Rekeys twinOptions)

include rekeys

theorem limits : options.limits = twinOptions.limits := by rw [rekeys.others]

theorem contains_eq {text : String} (short : text.length ≤ options.limits.maxStringLength) :
    options.keys.contains text = twinOptions.keys.contains text := by
  rw [rekeys.longer.contains_eq_false short, rekeys.longerTwin.contains_eq_false short]

end Options.Rekeys

theorem Json.Unconstrained.rekey {keys twinKeys : SyntheticKeys} {maxEntries maxLength depth : Nat}
    (same : ∀ text : String, text.length ≤ maxLength → keys.contains text = twinKeys.contains text)
    {value : Json} (shape : value.Unconstrained keys maxEntries maxLength depth) :
    value.Unconstrained twinKeys maxEntries maxLength depth := by
  induction shape with
  | null => exact .null
  | bool => exact .bool
  | int => exact .int
  | float => exact .float
  | str short => exact .str short
  | arr bounded _ ih => exact .arr bounded ih
  | obj bounded names _ ih =>
    refine .obj bounded (fun member present => ?_) ih
    obtain ⟨ordinary, short⟩ := names member present
    exact ⟨same member.1 short ▸ ordinary, short⟩

/-! ## Generators of alike values -/

/-- The raw values stand for the same value. -/
def SameHoisted (keys twinKeys : SyntheticKeys) (value other : Json) : Prop :=
  hoist keys value = hoist twinKeys other

theorem sameHoisted_items {keys twinKeys : SyntheticKeys} {items others : List Json}
    (pairs : List.Forall₂ (SameHoisted keys twinKeys) items others) :
    SameHoisted keys twinKeys (.arr items) (.arr others) := by
  have images : items.map (hoist keys) = others.map (hoist twinKeys) := by
    induction pairs with
    | nil => rfl
    | cons first _ ih => rw [List.map_cons, List.map_cons, first, ih]
  rw [SameHoisted, hoist, hoist, hoistItems_eq_map, hoistItems_eq_map, images]

namespace Generator

variable {options twinOptions : Options}

/-- Draws of the generators give related values, if expansions give values that hoist alike. -/
def Relates (options twinOptions : Options) (related : Json → Json → Prop)
    (generator other : Generator) : Prop :=
  ∀ depth expand twin, (∀ slot, Simulates depth (SameHoisted options.keys twinOptions.keys)
    (expand slot) (twin slot)) → Pairs options twinOptions depth expand twin related generator other

/-- Draws of the generators give values that hoist alike. -/
abbrev Alike (options twinOptions : Options) : Generator → Generator → Prop :=
  Relates options twinOptions (SameHoisted options.keys twinOptions.keys)

theorem Relates.mono {related weaker : Json → Json → Prop} {generator other : Generator}
    (relates : Relates options twinOptions related generator other)
    (implies : ∀ value other, related value other → weaker value other) :
    Relates options twinOptions weaker generator other :=
  fun depth expand twin expands => (relates depth expand twin expands).mono implies

/-- The same draws with values that hoist to themselves. -/
theorem alike_of_meets {post : Json → Prop} {generator other : Generator}
    (free : ∀ value, post value → value.FreeOf options.keys ∧ value.FreeOf twinOptions.keys)
    (meets : ∀ depth expand twin, Meets depth (fun _ => True) post
      (generator.drawWith options expand) (other.drawWith twinOptions twin)) :
    Alike options twinOptions generator other := by
  intro depth expand twin _
  refine (meets depth expand twin).simulates.mono fun value other drawn => ?_
  obtain ⟨rfl, holds⟩ := drawn
  obtain ⟨own, others⟩ := free value holds
  rw [SameHoisted, hoist_of_freeOf own, hoist_of_freeOf others]

theorem basic_alike (limits : options.limits = twinOptions.limits) {generator : Generator}
    (basic : generator.IsBasic)
    (free : ∀ value, generator.Yields options (fun _ _ => False) value →
      value.FreeOf options.keys ∧ value.FreeOf twinOptions.keys) :
    Alike options twinOptions generator generator := by
  refine alike_of_meets free fun depth expand twin => ?_
  -- Nothing is expanded, so expansions may as well fail.
  let idle : Nat → Draw Json := fun _ => Draw.fail .noValidator
  rw [basic.drawWith_eq rfl expand idle, basic.drawWith_eq limits.symm twin idle]
  exact drawWith_meets (fun _ _ => trivial) fun _ _ => fail_meets trivial

section Draws

variable (rekeys : options.Rekeys twinOptions)

include rekeys

theorem unconstrained_freeOf {maxEntries nesting : Nat} {value : Json} (shape : value.Unconstrained
    options.keys maxEntries options.limits.maxStringLength nesting) :
    value.FreeOf options.keys ∧ value.FreeOf twinOptions.keys :=
  ⟨shape.freeOf, (shape.rekey fun _ short => rekeys.contains_eq short).freeOf⟩

theorem drawArbitrary_meets_rekeyed (depth maxEntries nesting : Nat) :
    Meets depth (fun _ => True)
      (Json.Unconstrained options.keys maxEntries options.limits.maxStringLength nesting)
      (drawArbitrary options maxEntries options.limits.maxStringLength nesting)
      (drawArbitrary twinOptions maxEntries options.limits.maxStringLength nesting) :=
  drawArbitrary_meets rekeys.limits (fun _ short => rekeys.contains_eq short) maxEntries nesting

theorem arbitrary_alike (nesting maxEntries : Nat) : Alike options twinOptions
    (.arbitrary nesting maxEntries options.limits.maxStringLength)
    (.arbitrary nesting maxEntries options.limits.maxStringLength) :=
  alike_of_meets (fun _ shape => unconstrained_freeOf rekeys shape) fun depth _ _ =>
    drawArbitrary_meets_rekeyed rekeys depth maxEntries nesting

/-- Negations filter values that are the same under both choices. -/
theorem filter_alike (nesting maxEntries : Nat) (fragment : String) (accepts : Json → Bool) :
    Alike options twinOptions
      (.filter (.arbitrary nesting maxEntries options.limits.maxStringLength) fragment accepts)
      (.filter (.arbitrary nesting maxEntries options.limits.maxStringLength) fragment accepts) := by
  have free : ∀ value, (Json.Unconstrained options.keys maxEntries options.limits.maxStringLength
      nesting value ∧ accepts value = true) →
      value.FreeOf options.keys ∧ value.FreeOf twinOptions.keys :=
    fun _ holds => unconstrained_freeOf rekeys holds.1
  refine alike_of_meets free fun depth expand twin => ?_
  rw [drawWith, drawWith, drawWith, drawWith, ← rekeys.limits]
  exact drawAccepted_meets trivial (drawArbitrary_meets_rekeyed rekeys depth maxEntries nesting) _

omit rekeys in
theorem drawSize_congr (limits : options.limits = twinOptions.limits) (least most : Nat) :
    drawSize options least most = drawSize twinOptions least most := by
  unfold drawSize windingDown
  rw [limits]

omit rekeys in
theorem drawPlace_congr (limits : options.limits = twinOptions.limits) (count : Nat)
    (minimal : Option Nat) : drawPlace options count minimal = drawPlace twinOptions count minimal := by
  unfold drawPlace windingDown
  rw [limits]

theorem array_alike {items others : Generator} (inner : Alike options twinOptions items others)
    {least most : Nat} {unique : Bool} : Alike options twinOptions
      (.array items least most unique) (.array others least most unique) := by
  intro depth expand twin expands
  have each := inner depth expand twin expands
  have size : Meets depth (fun _ => True) _ (drawSize options least most)
      (drawSize options least most) := drawSize_meets fun _ => trivial
  unfold Pairs
  rw [drawWith, drawWith, ← drawSize_congr rekeys.limits, ← rekeys.limits]
  refine bind_simulates size.simulates fun length _ same => ?_
  obtain ⟨rfl, -⟩ := same
  split
  · refine (drawDistinct_simulates rekeys.limits (fun _ _ same => same) each _ _ _ _ .nil).mono ?_
    rintro _ _ ⟨_, _, rfl, rfl, pairs⟩
    exact sameHoisted_items pairs
  · exact bind_simulates (many_simulates each length) fun _ _ pairs =>
      pure_simulates (sameHoisted_items pairs)

omit rekeys in
theorem tuple_alike {items others : List Generator}
    (each : List.Forall₂ (Alike options twinOptions) items others) :
    Alike options twinOptions (.tuple items) (.tuple others) := by
  intro depth expand twin expands
  unfold Pairs
  rw [drawWith, drawWith]
  refine bind_simulates (drawAll_simulates (each.imp fun _ _ inner =>
    inner depth expand twin expands)) fun _ _ pairs => ?_
  exact pure_simulates (sameHoisted_items pairs)

theorem choice_alike {label : String} {alternatives others : List Generator} {minimal : Option Nat}
    (each : List.Forall₂ (Alike options twinOptions) alternatives others) :
    Alike options twinOptions (.choice label alternatives minimal)
      (.choice label others minimal) := by
  intro depth expand twin expands
  have place : Meets depth (fun _ => True) _ (drawPlace options alternatives.length minimal)
      (drawPlace options alternatives.length minimal) := drawPlace_meets (fun _ => trivial) minimal
  unfold Pairs
  rw [drawWith, drawWith, ← drawPlace_congr rekeys.limits, ← each.length_eq]
  refine bind_simulates place.simulates fun place _ same => ?_
  obtain ⟨rfl, -⟩ := same
  exact drawNth_simulates (each.imp fun _ _ inner => inner depth expand twin expands) place

/-! ## Records -/

/-- The fields go to one part of a hoisted object, where their values hoist alike. -/
def SameField (options twinOptions : Options) (field other : String × Generator) : Prop :=
  Relates options twinOptions (fun value otherValue => ∀ members otherMembers,
    Rekeyed options.keys twinOptions.keys members otherMembers →
    Rekeyed options.keys twinOptions.keys (Entries.insert field.1 value members)
      (Entries.insert other.1 otherValue otherMembers)) field.2 other.2

omit rekeys in
theorem record_alike {fields others : List (String × Generator)}
    (each : List.Forall₂ (SameField options twinOptions) fields others) :
    Alike options twinOptions (.record fields) (.record others) := by
  intro depth expand twin expands
  unfold Pairs
  rw [drawWith, drawWith]
  refine (drawFields_simulates (each.imp fun _ _ inner => inner depth expand twin expands)
    .nil).mono ?_
  rintro _ _ ⟨_, _, rfl, rfl, alike⟩
  exact alike.hoist_eq

/-- A field of an ordinary name. -/
theorem sameField_ordinary {name : String} (ordinary : options.keys.contains name = false)
    (ordinaryTwin : twinOptions.keys.contains name = false) {field other : Generator}
    (alike : Alike options twinOptions field other) :
    SameField options twinOptions (name, field) (name, other) :=
  alike.mono fun _ _ same _ _ before =>
    before.insert_ordinary rekeys.distinct rekeys.distinctTwin ordinary ordinaryTwin same

omit rekeys in
/-- A container of named values. -/
theorem record_relates {α : Type} {image twinImage : Json → α}
    {fields others : List (String × Generator)}
    (each : List.Forall₂ (Named (Relates options twinOptions fun value other =>
      image value = twinImage other)) fields others) :
    Relates options twinOptions (fun value other => ∃ members others, value = .obj members ∧
      other = .obj others ∧ SameImages image twinImage members others)
      (.record fields) (.record others) := by
  intro depth expand twin expands
  unfold Pairs
  rw [drawWith, drawWith]
  refine drawFields_simulates (each.imp fun field other named => ?_) .nil
  obtain ⟨name, generator⟩ := field
  obtain ⟨_, otherGenerator⟩ := other
  obtain ⟨rfl, relates⟩ := named
  exact (relates depth expand twin expands).mono fun _ _ same _ _ before => before.insert same name

/-- A dictionary whose keys are never synthetic. -/
theorem dictionary_relates {keys values others : Generator}
    (apart : ∀ depth expand twin, Meets depth (fun _ => True)
      (fun drawn => ∀ name, drawn = .str name → options.keys.contains name = false ∧
        twinOptions.keys.contains name = false)
      (keys.drawWith options expand) (keys.drawWith twinOptions twin))
    (inner : Alike options twinOptions values others) (maxEntries : Nat) (reserved : List String)
    (excluded : List Pattern) :
    Relates options twinOptions
      (fun value other => hoistEntries options.keys value = hoistEntries twinOptions.keys other)
      (.dictionary keys values maxEntries reserved excluded)
      (.dictionary keys others maxEntries reserved excluded) := by
  intro depth expand twin expands
  have size : Meets depth (fun _ => True) _ (drawSize options 0 maxEntries)
      (drawSize options 0 maxEntries) := drawSize_meets fun _ => trivial
  have admits := (apart depth expand twin).mono fun drawn apart =>
    show ∀ name, drawn = .str name → admitsKey options reserved excluded name =
      admitsKey twinOptions reserved excluded name from by
    rintro name rfl
    obtain ⟨own, others⟩ := apart name rfl
    rw [admitsKey, admitsKey, own, others]
  unfold Pairs
  rw [drawWith, drawWith, ← drawSize_congr rekeys.limits]
  refine bind_simulates size.simulates fun count _ same => ?_
  obtain ⟨rfl, -⟩ := same
  refine (drawEntries_simulates (SameImages (hoist options.keys) (hoist twinOptions.keys)) admits
    (inner depth expand twin expands) (fun before same => before.insert same _) count .nil).mono ?_
  rintro _ _ ⟨_, _, rfl, rfl, same⟩
  exact same.hoistEntries_eq

/-- The container of additional properties. -/
theorem sameField_additional {values others : Generator}
    (inner : Alike options twinOptions values others) (reserved : List String)
    (matchers : List (String × Pattern)) :
    SameField options twinOptions
      (options.keys.additionalProperties,
        Compiler.ObjectParts.additionalEntries options reserved matchers values)
      (twinOptions.keys.additionalProperties,
        Compiler.ObjectParts.additionalEntries twinOptions reserved matchers others) := by
  unfold SameField Compiler.ObjectParts.additionalEntries
  rw [← rekeys.limits]
  refine (dictionary_relates rekeys (fun depth expand twin => ?_) inner _ reserved _).mono
    fun _ _ same _ _ before => before.insert_additional rekeys.distinct rekeys.distinctTwin same
  rw [drawWith, drawWith]
  have text : Meets depth (fun _ => True) _ (drawText options.limits.maxStringLength)
      (drawText options.limits.maxStringLength) := drawText_meets _
  refine bind_meets text fun text short => pure_meets ?_
  rintro _ ⟨⟩
  exact ⟨rekeys.longer.contains_eq_false short, rekeys.longerTwin.contains_eq_false short⟩

/-- The container of pattern groups. -/
theorem sameField_patterns {reserved : List String} {groups others : List (String × Generator)}
    (each : List.Forall₂ (Compiler.SameGroup options.limits reserved (Alike options twinOptions))
      groups others)
    (apart : ∀ group ∈ groups, ∀ synthesizer,
      Synthesizer.ofPattern? group.1 options.limits.maxRepeat = some synthesizer → ∀ source,
      options.keys.contains (synthesizer.draw source).1 = false ∧
        twinOptions.keys.contains (synthesizer.draw source).1 = false) :
    SameField options twinOptions (options.keys.patternProperties, .record groups)
      (twinOptions.keys.patternProperties, .record others) := by
  have relates : List.Forall₂ (Named (Relates options twinOptions fun value other =>
      hoistEntries options.keys value = hoistEntries twinOptions.keys other)) groups others := by
    induction each with
    | nil => exact .nil
    | @cons group other _ _ first _ ih =>
      refine .cons ⟨first.1, ?_⟩ (ih fun later present => apart later (List.mem_cons_of_mem _ present))
      obtain ⟨-, synthesizer, values, otherValues, excluded, found, own, twins, inner⟩ := first
      rw [own, twins]
      refine dictionary_relates rekeys (fun depth expand twin => ?_) inner _ _ _
      rw [drawWith, drawWith]
      have drawn : Meets depth (fun _ => True)
          (fun text => options.keys.contains text = false ∧ twinOptions.keys.contains text = false)
          (ofRandom synthesizer.draw) (ofRandom synthesizer.draw) :=
        ofRandom_meets (apart group List.mem_cons_self synthesizer found)
      refine bind_meets drawn fun text apart => pure_meets ?_
      rintro _ ⟨⟩
      exact apart
  refine (record_relates relates).mono ?_
  rintro _ _ ⟨_, _, rfl, rfl, same⟩ _ _ before
  exact before.insert_patterns rekeys.distinct rekeys.distinctTwin same.hoistGroups_eq

/-- The container of the members of an `allOf`. -/
theorem merged_alike {members others : List (String × Generator)}
    (each : List.Forall₂ (Named (Alike options twinOptions)) members others) :
    Alike options twinOptions (.record [(options.keys.allOf, .record members)])
      (.record [(twinOptions.keys.allOf, .record others)]) := by
  refine record_alike (.cons ((record_relates each).mono ?_) .nil)
  rintro _ _ ⟨_, _, rfl, rfl, same⟩ _ _ before
  exact before.insert_merged rekeys.distinct rekeys.distinctTwin same.hoistContainer_eq

end Draws

end Generator

end SchemaSampler
