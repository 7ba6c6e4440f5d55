import SchemaSampler.Proofs.Draw.Rules

/-!
# What generators draw

Two relations describe a generator apart from any random source. `Generator.Yields reach` says
which raw values a generator can give when the definition in a slot gives those in `reach`;
`Generator.Forces` says which slots a draw expands although it winds down.

Results:
1. `Generator.drawWith_meets`: one generator's draw, given what the expansion of slots does. The
   draw keeps the depth, its values are yielded, its errors are those of the expansions and those
   that no reference causes; and it depends on the expansions of forced slots only once it winds
   down.
2. `Generator.drawWith_meets_checked`: among these errors are defects only if a generator has not
   passed the checks of its construction.
3. `Generator.yieldsFields_mem`, `Generator.exists_left_of_mem`: where the parts of a yielded value
   come from.
-/

namespace SchemaSampler

/-! ## Unconstrained values -/

/-- Values nested at most `depth` deep without synthetic keys, of bounded sizes. -/
inductive Json.Unconstrained (keys : SyntheticKeys) (maxEntries maxLength : Nat) :
    Nat → Json → Prop
  | null {depth : Nat} : Unconstrained keys maxEntries maxLength depth .null
  | bool {depth : Nat} {value : Bool} : Unconstrained keys maxEntries maxLength depth (.bool value)
  | int {depth : Nat} {value : Int} : Unconstrained keys maxEntries maxLength depth (.int value)
  | float {depth : Nat} {value : Binary64} :
      Unconstrained keys maxEntries maxLength depth (.float value)
  | str {depth : Nat} {text : String} : text.length ≤ maxLength →
      Unconstrained keys maxEntries maxLength depth (.str text)
  | arr {depth : Nat} {items : List Json} : items.length ≤ maxEntries →
      (∀ item ∈ items, Unconstrained keys maxEntries maxLength depth item) →
      Unconstrained keys maxEntries maxLength (depth + 1) (.arr items)
  | obj {depth : Nat} {members : Entries Json} : members.length ≤ maxEntries →
      (∀ member ∈ members, keys.contains member.1 = false ∧ member.1.length ≤ maxLength) →
      (∀ member ∈ members, Unconstrained keys maxEntries maxLength depth member.2) →
      Unconstrained keys maxEntries maxLength (depth + 1) (.obj members)

namespace Generator

/-! ## The relations -/

/-- The numbers that factors of a step give. -/
def YieldsMultiple (multiples : Multiples) (drawn : Json) : Prop :=
  ∃ factor, drawn = .int (multiples.value factor).toInt64 ∨
    drawn = .float (multiples.value factor)

mutual
/-- The generator can draw the value when slots give the values in `reach`. -/
def Yields (options : Options) (reach : Nat → Json → Prop) : Generator → Json → Prop
  | constant value, drawn => drawn = value
  | boolean, drawn => ∃ value, drawn = .bool value
  | enumeration _ values, drawn => drawn ∈ values
  | integer _ _ none, drawn => ∃ value, drawn = .int value
  | integer _ _ (some multiples), drawn => YieldsMultiple multiples drawn
  | number _ _ none, drawn => ∃ value, drawn = .float value
  | number _ _ (some multiples), drawn => YieldsMultiple multiples drawn
  | text maxLength, drawn => ∃ text : String, drawn = .str text ∧ text.length ≤ maxLength
  | pattern _, drawn => ∃ text, drawn = .str text
  | choice _ alternatives _, drawn => YieldsSome options reach alternatives drawn
  | array items least most _, drawn => ∃ values, drawn = .arr values ∧
      least ≤ values.length ∧ values.length ≤ max least most ∧
      ∀ value ∈ values, Yields options reach items value
  | tuple items, drawn => ∃ values, drawn = .arr values ∧ YieldsEach options reach items values
  | record fields, drawn => ∃ members, drawn = .obj (Entries.ofList members) ∧
      YieldsFields options reach fields members
  | dictionary keys values maxEntries reserved excluded, drawn => ∃ members, drawn = .obj members ∧
      members.length ≤ maxEntries ∧ ∀ member ∈ members,
        admitsKey options reserved excluded member.1 = true ∧
        Yields options reach keys (.str member.1) ∧ Yields options reach values member.2
  | arbitrary depth maxEntries maxLength, drawn =>
      drawn.Unconstrained options.keys maxEntries maxLength depth
  | filter inner _ accepts, drawn => Yields options reach inner drawn ∧ accepts drawn = true
  | map inner apply, drawn => ∃ value, Yields options reach inner value ∧ drawn = apply value
  | reference _ slot, drawn => reach slot drawn
  | closure draw, drawn => ∃ source, drawn = (draw source).1

/-- One of the generators can draw the value. -/
def YieldsSome (options : Options) (reach : Nat → Json → Prop) : List Generator → Json → Prop
  | [], _ => False
  | alternative :: rest, drawn =>
    Yields options reach alternative drawn ∨ YieldsSome options reach rest drawn

/-- The generators can draw the values, one each. -/
def YieldsEach (options : Options) (reach : Nat → Json → Prop) :
    List Generator → List Json → Prop
  | [], drawn => drawn = []
  | item :: rest, drawn => ∃ value others, drawn = value :: others ∧
      Yields options reach item value ∧ YieldsEach options reach rest others

/-- The fields can draw the members, one each and under their names. -/
def YieldsFields (options : Options) (reach : Nat → Json → Prop) :
    List (String × Generator) → List (String × Json) → Prop
  | [], drawn => drawn = []
  | (name, field) :: rest, drawn => ∃ value others, drawn = (name, value) :: others ∧
      Yields options reach field value ∧ YieldsFields options reach rest others
end

/-- A draw of the generator that winds down can expand a reference to the slot. -/
inductive Forces : Generator → Nat → Prop
  | reference {pointer : String} {slot : Nat} : Forces (.reference pointer slot) slot
  | field {fields : List (String × Generator)} {field : String × Generator} {slot : Nat} :
      field ∈ fields → Forces field.2 slot → Forces (.record fields) slot
  | component {items : List Generator} {item : Generator} {slot : Nat} :
      item ∈ items → Forces item slot → Forces (.tuple items) slot
  | item {items : Generator} {least most : Nat} {unique : Bool} {slot : Nat} :
      0 < least → Forces items slot → Forces (.array items least most unique) slot
  | minimal {label : String} {alternatives : List Generator} {alternative : Generator}
      {place slot : Nat} : alternatives[place]? = some alternative → Forces alternative slot →
      Forces (.choice label alternatives (some place)) slot
  | alternative {label : String} {alternatives : List Generator} {alternative : Generator}
      {slot : Nat} : alternative ∈ alternatives → Forces alternative slot →
      Forces (.choice label alternatives none) slot
  | filter {inner : Generator} {fragment : String} {accepts : Json → Bool} {slot : Nat} :
      Forces inner slot → Forces (.filter inner fragment accepts) slot
  | map {inner : Generator} {apply : Json → Json} {slot : Nat} :
      Forces inner slot → Forces (.map inner apply) slot

/-! ## Induction on generators -/

section Induction

variable {motive : Generator → Prop}
  (constant : ∀ value, motive (.constant value))
  (boolean : motive .boolean)
  (enumeration : ∀ label values, motive (.enumeration label values))
  (integer : ∀ low high multiples, motive (.integer low high multiples))
  (number : ∀ low high multiples, motive (.number low high multiples))
  (text : ∀ maxLength, motive (.text maxLength))
  (pattern : ∀ synthesizer, motive (.pattern synthesizer))
  (choice : ∀ label alternatives minimal, (∀ alternative ∈ alternatives, motive alternative) →
    motive (.choice label alternatives minimal))
  (array : ∀ items least most unique, motive items → motive (.array items least most unique))
  (tuple : ∀ items, (∀ item ∈ items, motive item) → motive (.tuple items))
  (record : ∀ fields, (∀ field ∈ fields, motive field.2) → motive (.record fields))
  (dictionary : ∀ keys values maxEntries reserved excluded, motive keys → motive values →
    motive (.dictionary keys values maxEntries reserved excluded))
  (arbitrary : ∀ depth maxEntries maxLength, motive (.arbitrary depth maxEntries maxLength))
  (filter : ∀ inner fragment accepts, motive inner → motive (.filter inner fragment accepts))
  (map : ∀ inner apply, motive inner → motive (.map inner apply))
  (reference : ∀ pointer slot, motive (.reference pointer slot))
  (closure : ∀ draw, motive (.closure draw))

include constant boolean enumeration integer number text pattern choice array tuple record
  dictionary arbitrary filter map reference closure in
/-- The lists inside a generator give one hypothesis for each of their generators. -/
@[elab_as_elim]
theorem induction (generator : Generator) : motive generator := by
  refine @Generator.rec motive (fun generators => ∀ member ∈ generators, motive member)
    (fun fields => ∀ field ∈ fields, motive field.2) (fun field => motive field.2)
    constant boolean enumeration integer number text pattern choice array tuple record
    dictionary arbitrary filter map reference closure ?_ ?_ ?_ ?_ ?_ generator
  · exact fun _ absent => nomatch absent
  · intro head tail first others member present
    cases List.mem_cons.mp present with
    | inl same => exact same ▸ first
    | inr later => exact others member later
  · exact fun _ absent => nomatch absent
  · intro head tail first others field present
    cases List.mem_cons.mp present with
    | inl same => exact same ▸ first
    | inr later => exact others field later
  · exact fun _ _ holds => holds

end Induction

end Generator

/-! ## Draws of scalars and unconstrained values

These draws never fail, apart from floats that are no JSON numbers.
-/

section Scalars

open Draw

variable {depth : Nat} {allowed : SampleError → Prop}

theorem alphabet_size_ne_zero : alphabet.size ≠ 0 := by decide

theorem drawChars_meets (count : Nat) (text : String) :
    Meets depth allowed (fun drawn => drawn.length = text.length + count)
      (drawChars count text) (drawChars count text) := by
  induction count generalizing text with
  | zero => exact pure_meets rfl
  | succ count ih =>
    refine bind_meets (position_meets fun none => absurd none alphabet_size_ne_zero)
      fun place below => ?_
    rw [Array.getElem?_eq_getElem below]
    refine (ih (text.push alphabet[place])).mono fun drawn counted => ?_
    rw [String.length_push] at counted
    omega

theorem drawText_meets (maxLength : Nat) :
    Meets depth allowed (fun drawn => drawn.length ≤ maxLength)
      (drawText maxLength) (drawText maxLength) := by
  refine bind_meets (size_meets fun below => absurd below (Nat.not_lt_zero _)) fun length within => ?_
  refine (drawChars_meets length "").mono fun drawn counted => ?_
  rw [counted, String.length_empty]
  omega

theorem finiteNumber_meets (value : Binary64)
    (infinite : allowed (.invalidSchema (.unrepresentable value))) :
    Meets depth allowed (fun drawn => drawn = .float value)
      (finiteNumber value) (finiteNumber value) := by
  unfold finiteNumber
  split
  · exact pure_meets rfl
  · exact fail_meets infinite

theorem drawWholeMultiple_meets {multiples : Multiples}
    (empty : multiples.most < multiples.least → allowed (.defect .emptyRange))
    (infinite : ∀ value, allowed (.invalidSchema (.unrepresentable value))) :
    Meets depth allowed (Generator.YieldsMultiple multiples)
      (drawWholeMultiple multiples) (drawWholeMultiple multiples) := by
  refine bind_meets (integer_meets empty) fun factor _ => ?_
  dsimp only
  split
  · exact pure_meets ⟨factor, .inl rfl⟩
  · exact (finiteNumber_meets _ (infinite _)).mono fun _ same => ⟨factor, .inr same⟩

theorem arbitraryFloat_ordered : (arbitraryFloatMin.le arbitraryFloatMax &&
    (arbitraryFloatMax.sub arbitraryFloatMin).isFinite) = true := by decide +kernel

theorem drawScalar_meets (maxEntries maxLength nesting kind : Nat) (keys : SyntheticKeys) :
    Meets depth allowed (Json.Unconstrained keys maxEntries maxLength nesting)
      (drawScalar maxLength kind) (drawScalar maxLength kind) := by
  unfold drawScalar
  split
  · exact pure_meets .null
  · have coin : Meets depth allowed (fun _ => True) (ofRandom Random.coin) (ofRandom Random.coin) :=
      ofRandom_meets fun _ => trivial
    exact bind_meets coin fun _ _ => pure_meets .bool
  · exact bind_meets (integer_meets fun reversed => absurd reversed (by decide)) fun _ _ =>
      pure_meets .int
  · refine bind_meets (float_meets fun unordered => ?_) fun value _ => pure_meets ?_
    · rw [arbitraryFloat_ordered] at unordered
      cases unordered
    · split
      · exact .float
      · exact .null
  · exact bind_meets (drawText_meets maxLength) fun _ short => pure_meets (.str short)

/-- Synthetic keys matter as far as they are short enough to be drawn. -/
theorem drawMembers_meets {keys twinKeys : SyntheticKeys} {maxLength : Nat}
    (alike : ∀ text : String, text.length ≤ maxLength → keys.contains text = twinKeys.contains text)
    {value twin : Draw Json} {post : Json → Prop} (each : Meets depth allowed post value twin)
    (count : Nat) (before : Entries Json) :
    Meets depth allowed
      (fun drawn => ∃ members, drawn = .obj members ∧ members.length ≤ before.length + count ∧
        ∀ member ∈ members, member ∈ before ∨ ((keys.contains member.1 = false ∧
          member.1.length ≤ maxLength) ∧ post member.2))
      (drawMembers keys maxLength value count before)
      (drawMembers twinKeys maxLength twin count before) := by
  induction count generalizing before with
  | zero => exact pure_meets ⟨before, rfl, Nat.le_refl _, fun _ present => .inl present⟩
  | succ count ih =>
    refine bind_meets (drawText_meets maxLength) fun key short => ?_
    rw [← alike key short]
    split
    next =>
      refine (ih before).mono fun drawn described => ?_
      obtain ⟨members, same, bounded, all⟩ := described
      exact ⟨members, same, Nat.le_succ_of_le bounded, all⟩
    next ordinary =>
      refine bind_meets each fun member holds => ?_
      refine (ih (Entries.insert key member before)).mono fun drawn described => ?_
      obtain ⟨members, same, bounded, all⟩ := described
      have longer := Entries.length_insert_le key member before
      refine ⟨members, same, by omega, fun other present => ?_⟩
      rcases all other present with inserted | added
      · cases Entries.mem_of_mem_insert inserted with
        | inl new => exact .inr (new ▸ ⟨⟨Bool.not_eq_true _ ▸ ordinary, short⟩, holds⟩)
        | inr old => exact .inl old
      · exact .inr added

theorem drawArbitrary_meets {options twinOptions : Options}
    (limits : options.limits = twinOptions.limits) {maxLength : Nat}
    (alike : ∀ text : String, text.length ≤ maxLength →
      options.keys.contains text = twinOptions.keys.contains text) (maxEntries nesting : Nat) :
    Meets depth allowed (Json.Unconstrained options.keys maxEntries maxLength nesting)
      (drawArbitrary options maxEntries maxLength nesting)
      (drawArbitrary twinOptions maxEntries maxLength nesting) := by
  induction nesting with
  | zero =>
    refine bind_meets (position_meets fun none => absurd none (by decide)) fun kind below => ?_
    rw [if_pos below]
    exact drawScalar_meets maxEntries maxLength 0 kind options.keys
  | succ nesting ih =>
    rw [drawArbitrary, drawArbitrary, ← limits]
    refine bind_meets depth_meets fun inside _ => ?_
    refine bind_meets (position_meets fun none => ?_) fun kind _ => ?_
    · split at none <;> exact absurd none (by decide)
    have length : Meets depth allowed (fun length => 0 ≤ length ∧ length ≤ maxEntries)
        (Draw.size 0 maxEntries) (Draw.size 0 maxEntries) :=
      size_meets fun below => absurd below (Nat.not_lt_zero _)
    split
    next => exact drawScalar_meets maxEntries maxLength (nesting + 1) kind options.keys
    next =>
      split
      next =>
        refine bind_meets length fun length within => ?_
        refine bind_meets (many_meets length fun _ => ih) fun items described => ?_
        exact pure_meets (.arr (described.1 ▸ within.2) described.2)
      next =>
        refine bind_meets length fun length within => ?_
        refine (drawMembers_meets alike ih length []).mono fun drawn described => ?_
        obtain ⟨members, same, bounded, all⟩ := described
        rw [same]
        refine .obj (Nat.le_trans bounded (by simpa using within.2)) ?_ ?_
        · exact fun member present => ((all member present).resolve_left List.not_mem_nil).1
        · exact fun member present => ((all member present).resolve_left List.not_mem_nil).2

end Scalars

/-! ## Errors -/

/-- The error does not come from following a reference. -/
def SampleError.IsOwn : SampleError → Prop
  | .recursionLimit _ => False
  | .unboundDefinition _ => False
  | _ => True

theorem SampleError.IsOwn.ne_recursionLimit {error : SampleError} (own : error.IsOwn)
    (limit : Nat) : error ≠ .recursionLimit limit := by
  rintro rfl
  exact own

theorem SampleError.IsOwn.ne_unboundDefinition {error : SampleError} (own : error.IsOwn)
    (name : String) : error ≠ .unboundDefinition name := by
  rintro rfl
  exact own

/-- An operation was used outside its domain. -/
def SampleError.IsDefect : SampleError → Prop
  | .defect _ => True
  | _ => False

/-- The generator has passed the checks of its construction, at every depth: ranges and lists that
something is drawn from are not empty, and a minimal alternative exists. -/
inductive Generator.Checked : Generator → Prop
  | constant {value : Json} : Checked (.constant value)
  | boolean : Checked .boolean
  | enumeration {label : String} {values : List Json} : values ≠ [] →
      Checked (.enumeration label values)
  | integer {low high : Int} : low ≤ high → Checked (.integer low high none)
  | wholeMultiple {low high : Int} {multiples : Multiples} : multiples.least ≤ multiples.most →
      Checked (.integer low high (some multiples))
  | number {low high : Binary64} : low.le high = true → (high.sub low).isFinite = true →
      Checked (.number low high none)
  | multiple {low high : Binary64} {multiples : Multiples} : multiples.least ≤ multiples.most →
      Checked (.number low high (some multiples))
  | text {maxLength : Nat} : Checked (.text maxLength)
  | pattern {synthesizer : Synthesizer} : Checked (.pattern synthesizer)
  | choice {label : String} {alternatives : List Generator} {minimal : Option Nat} :
      alternatives ≠ [] → (∀ place, minimal = some place → place < alternatives.length) →
      (∀ alternative ∈ alternatives, Checked alternative) →
      Checked (.choice label alternatives minimal)
  | array {items : Generator} {least most : Nat} {unique : Bool} : least ≤ most → Checked items →
      Checked (.array items least most unique)
  | tuple {items : List Generator} : (∀ item ∈ items, Checked item) → Checked (.tuple items)
  | record {fields : List (String × Generator)} : (∀ field ∈ fields, Checked field.2) →
      Checked (.record fields)
  | dictionary {keys values : Generator} {maxEntries : Nat} {reserved : List String}
      {excluded : List Pattern} : Checked keys → Checked values →
      Checked (.dictionary keys values maxEntries reserved excluded)
  | arbitrary {depth maxEntries maxLength : Nat} : Checked (.arbitrary depth maxEntries maxLength)
  | filter {inner : Generator} {fragment : String} {accepts : Json → Bool} : Checked inner →
      Checked (.filter inner fragment accepts)
  | map {inner : Generator} {apply : Json → Json} : Checked inner → Checked (.map inner apply)
  | reference {pointer : String} {slot : Nat} : Checked (.reference pointer slot)
  | closure {draw : Random Json} : Checked (.closure draw)

/-- The errors that a draw causes apart from references are allowed; a checked generator causes no
defect. -/
def Generator.OwnErrorsIn (allowed : SampleError → Prop) (generator : Generator) : Prop :=
  ∀ error : SampleError, error.IsOwn → (error.IsDefect → ¬ generator.Checked) → allowed error

theorem Generator.OwnErrorsIn.inner {allowed : SampleError → Prop} {generator inner : Generator}
    (errors : generator.OwnErrorsIn allowed) (part : generator.Checked → inner.Checked) :
    inner.OwnErrorsIn allowed :=
  fun error own unchecked => errors error own fun defect checked => unchecked defect (part checked)

/-! ## Draws of generators -/

theorem admitsKey_iff {options : Options} {reserved : List String} {excluded : List Pattern}
    {name : String} : admitsKey options reserved excluded name = true ↔
      name ∉ reserved ∧ options.keys.contains name = false ∧
        ∀ pattern ∈ excluded, pattern.isMatch name = false := by
  simp [admitsKey, and_assoc]

namespace Generator

theorem yieldsSome_iff {options : Options} {reach : Nat → Json → Prop}
    {alternatives : List Generator} {drawn : Json} :
    YieldsSome options reach alternatives drawn ↔
      ∃ alternative ∈ alternatives, alternative.Yields options reach drawn := by
  induction alternatives with
  | nil => simp [YieldsSome]
  | cons alternative rest ih => simp [YieldsSome, ih]

theorem yieldsEach_iff {options : Options} {reach : Nat → Json → Prop} {items : List Generator}
    {values : List Json} :
    YieldsEach options reach items values ↔
      List.Forall₂ (fun item value => item.Yields options reach value) items values := by
  induction items generalizing values with
  | nil => simp [YieldsEach]
  | cons item rest ih =>
    rw [List.forall₂_cons_left_iff]
    constructor
    · rintro ⟨value, others, same, first, later⟩
      exact ⟨value, others, first, ih.mp later, same⟩
    · rintro ⟨value, others, first, later, same⟩
      exact ⟨value, others, same, first, ih.mpr later⟩

theorem yieldsFields_iff {options : Options} {reach : Nat → Json → Prop}
    {fields : List (String × Generator)} {members : List (String × Json)} :
    YieldsFields options reach fields members ↔
      List.Forall₂ (fun field member => field.1 = member.1 ∧ field.2.Yields options reach member.2)
        fields members := by
  induction fields generalizing members with
  | nil => simp [YieldsFields]
  | cons field rest ih =>
    obtain ⟨name, field⟩ := field
    rw [List.forall₂_cons_left_iff]
    constructor
    · rintro ⟨value, others, rfl, own, later⟩
      exact ⟨(name, value), others, ⟨rfl, own⟩, ih.mp later, rfl⟩
    · rintro ⟨⟨_, value⟩, others, ⟨rfl, own⟩, later, rfl⟩
      exact ⟨value, others, rfl, own, ih.mpr later⟩

/-- Whatever stands on the right of related lists has a partner on the left. -/
theorem exists_left_of_mem {α β : Type} {related : α → β → Prop} {left : List α} {right : List β}
    (pairs : List.Forall₂ related left right) {b : β} (present : b ∈ right) :
    ∃ a ∈ left, related a b := by
  induction pairs with
  | nil => cases present
  | cons first _ ih =>
    rcases List.mem_cons.mp present with rfl | later
    · exact ⟨_, List.mem_cons_self, first⟩
    · obtain ⟨a, there, holds⟩ := ih later
      exact ⟨a, List.mem_cons_of_mem _ there, holds⟩

/-- What stands at a place on the right of related lists has a partner at the same place. -/
theorem exists_left_of_getElem? {α β : Type} {related : α → β → Prop} {left : List α}
    {right : List β} (pairs : List.Forall₂ related left right) {place : Nat} {b : β}
    (found : right[place]? = some b) : ∃ a, left[place]? = some a ∧ related a b := by
  induction pairs generalizing place with
  | nil => cases found
  | cons first _ ih =>
    cases place with
    | zero =>
      cases found
      exact ⟨_, rfl, first⟩
    | succ place => exact ih found

/-- Members that stand for fields, one each, have their names. -/
theorem names_eq_of_fieldwise {holds : Generator → Json → Prop} {fields : List (String × Generator)}
    {members : List (String × Json)}
    (fieldwise : List.Forall₂ (fun field member => field.1 = member.1 ∧ holds field.2 member.2)
      fields members) : Entries.names members = Entries.names fields := by
  induction fieldwise with
  | nil => rfl
  | cons first _ ih =>
    rw [Entries.names, Entries.names, List.map_cons, List.map_cons, first.1]
    exact congrArg _ ih

theorem yieldsFields_mem {options : Options} {reach : Nat → Json → Prop}
    {fields : List (String × Generator)} {members : List (String × Json)}
    (yielded : YieldsFields options reach fields members) {member : String × Json}
    (present : member ∈ members) :
    ∃ field ∈ fields, field.1 = member.1 ∧ field.2.Yields options reach member.2 :=
  exists_left_of_mem (yieldsFields_iff.mp yielded) present

theorem drawNth_eq (options : Options) (expand : Nat → Draw Json) (place : Nat)
    (alternatives : List Generator) :
    drawNth options expand place alternatives = match alternatives[place]? with
      | some alternative => drawWith options expand alternative
      | none => Draw.fail (.defect .indexOutside) := by
  induction alternatives generalizing place with
  | nil => simp [drawNth]
  | cons alternative rest ih =>
    cases place with
    | zero => simp [drawNth]
    | succ place => simpa [drawNth] using ih place

section Meets

open Draw

variable {options : Options} {depth : Nat} {allowed : SampleError → Prop}
  {reach : Nat → Json → Prop} {expand twin : Nat → Draw Json}

/-- The draws of a generator with two expansions meet what it yields. -/
abbrev MeetsYields (options : Options) (depth : Nat) (allowed : SampleError → Prop)
    (reach : Nat → Json → Prop) (expand twin : Nat → Draw Json) (generator : Generator) : Prop :=
  Meets depth allowed (generator.Yields options reach) (generator.drawWith options expand)
    (generator.drawWith options twin)

theorem drawAll_meets {items : List Generator}
    (each : ∀ item ∈ items, MeetsYields options depth allowed reach expand twin item) :
    Meets depth allowed (YieldsEach options reach items)
      (drawAll options expand items) (drawAll options twin items) := by
  induction items with
  | nil => exact pure_meets rfl
  | cons item rest ih =>
    refine bind_meets (each item List.mem_cons_self) fun value first => ?_
    refine bind_meets (ih fun other later => each other (List.mem_cons_of_mem _ later))
      fun values others => ?_
    exact pure_meets ⟨value, values, rfl, first, others⟩

theorem drawFields_meets_each {post : Generator → Json → Prop}
    {fields : List (String × Generator)}
    (each : ∀ field ∈ fields, Meets depth allowed (post field.2) (field.2.drawWith options expand)
      (field.2.drawWith options twin)) (before : Entries Json) :
    Meets depth allowed
      (fun drawn => ∃ members, drawn = .obj (Entries.insertAll before members) ∧
        List.Forall₂ (fun field member => field.1 = member.1 ∧ post field.2 member.2) fields members)
      (drawFields options expand before fields) (drawFields options twin before fields) := by
  induction fields generalizing before with
  | nil => exact pure_meets ⟨[], rfl, .nil⟩
  | cons field rest ih =>
    obtain ⟨name, field⟩ := field
    refine bind_meets (each (name, field) List.mem_cons_self) fun value first => ?_
    refine (ih (fun other later => each other (List.mem_cons_of_mem _ later))
      (Entries.insert name value before)).mono fun drawn described => ?_
    obtain ⟨members, same, others⟩ := described
    exact ⟨(name, value) :: members, same, .cons ⟨rfl, first⟩ others⟩

theorem drawFields_meets {fields : List (String × Generator)}
    (each : ∀ field ∈ fields, MeetsYields options depth allowed reach expand twin field.2)
    (before : Entries Json) :
    Meets depth allowed
      (fun drawn => ∃ members, drawn = .obj (Entries.insertAll before members) ∧
        YieldsFields options reach fields members)
      (drawFields options expand before fields) (drawFields options twin before fields) :=
  (drawFields_meets_each each before).mono fun _ ⟨members, same, fieldwise⟩ =>
    ⟨members, same, yieldsFields_iff.mpr fieldwise⟩

/-- A draw is as good as the expansions it may ask for: those of all slots, or of the forced ones
when it winds down. -/
theorem drawWith_meets_checked {generator : Generator} (errors : generator.OwnErrorsIn allowed)
    (expands : ∀ slot, (options.limits.windDownDepth ≤ depth → generator.Forces slot) →
      Meets depth allowed (reach slot) (expand slot) (twin slot)) :
    MeetsYields options depth allowed reach expand twin generator := by
  unfold MeetsYields
  induction generator using Generator.induction with
  | constant value => exact pure_meets rfl
  | boolean =>
    have coin : Meets depth allowed (fun _ => True) (ofRandom Random.coin) (ofRandom Random.coin) :=
      ofRandom_meets fun _ => trivial
    exact bind_meets coin fun value _ => pure_meets ⟨value, rfl⟩
  | enumeration label values =>
    refine bind_meets (position_meets fun none => errors _ trivial fun _ checked => ?_)
      fun place below => ?_
    · cases checked with
      | enumeration some => exact some (List.length_eq_zero_iff.mp none)
    · exact item_meets (fun outside => absurd below (Nat.not_lt_of_le outside)) fun _ present =>
        present
  | integer low high multiples =>
    cases multiples with
    | none =>
      refine bind_meets (integer_meets fun reversed => errors _ trivial fun _ checked => ?_)
        fun value _ => pure_meets ⟨value, rfl⟩
      cases checked with
      | integer ordered => exact absurd ordered (not_le_of_gt reversed)
    | some multiples =>
      refine drawWholeMultiple_meets (fun reversed => errors _ trivial fun _ checked => ?_)
        fun value => errors _ trivial False.elim
      cases checked with
      | wholeMultiple ordered => exact absurd ordered (not_le_of_gt reversed)
  | number low high multiples =>
    have infinite (value : Binary64) : allowed (.invalidSchema (.unrepresentable value)) :=
      errors _ trivial False.elim
    cases multiples with
    | none =>
      unfold drawWith drawNumber
      dsimp only
      split
      · exact (finiteNumber_meets low (infinite low)).mono fun _ same => ⟨low, same⟩
      · refine bind_meets (float_meets fun unordered => errors _ trivial fun _ checked => ?_)
          fun value _ => (finiteNumber_meets value (infinite value)).mono fun _ same => ⟨value, same⟩
        cases checked with
        | number ordered finite =>
          rw [ordered, finite] at unordered
          cases unordered
    | some multiples =>
      refine bind_meets (integer_meets fun reversed => errors _ trivial fun _ checked => ?_)
        fun factor _ => (finiteNumber_meets _ (infinite _)).mono fun _ same => ⟨factor, .inr same⟩
      cases checked with
      | multiple ordered => exact absurd ordered (not_le_of_gt reversed)
  | text maxLength =>
    exact bind_meets (drawText_meets maxLength) fun text short => pure_meets ⟨text, rfl, short⟩
  | pattern synthesizer =>
    have drawn : Meets depth allowed (fun _ => True) (ofRandom synthesizer.draw)
        (ofRandom synthesizer.draw) := ofRandom_meets fun _ => trivial
    exact bind_meets drawn fun text _ => pure_meets ⟨text, rfl⟩
  | choice label alternatives minimal ih =>
    refine bind_meets (drawPlace_meets (fun none => errors _ trivial fun _ checked => ?_) minimal)
      fun place known => ?_
    · cases checked with
      | choice some _ _ => exact some (List.length_eq_zero_iff.mp none)
    obtain ⟨least, inside⟩ := known
    rw [drawNth_eq, drawNth_eq]
    cases found : alternatives[place]? with
    | none =>
      refine fail_meets (errors _ trivial fun _ checked => ?_)
      have outside := List.getElem?_eq_none_iff.mp found
      cases checked with
      | choice _ minimalInside _ =>
        rcases inside with below | least
        · exact absurd below (Nat.not_lt_of_le outside)
        · exact absurd (minimalInside place least) (Nat.not_lt_of_le outside)
    | some alternative =>
      have present := List.mem_of_getElem? found
      have part : (choice label alternatives minimal).Checked → alternative.Checked := by
        intro checked
        cases checked with
        | choice _ _ each => exact each alternative present
      refine (ih alternative present (errors.inner part) fun slot forced =>
        expands slot fun deep => ?_).mono
        fun drawn yielded => yieldsSome_iff.mpr ⟨alternative, present, yielded⟩
      cases minimal with
      | none => exact .alternative present (forced deep)
      | some minimal => exact .minimal (least deep minimal rfl ▸ found) (forced deep)
  | array items least most unique ih =>
    refine bind_meets (drawSize_meets fun reversed => errors _ trivial fun _ checked => ?_)
      fun count within => ?_
    · cases checked with
      | array ordered _ => exact absurd ordered (not_le_of_gt reversed)
    obtain ⟨down, above, below⟩ := within
    have part : (array items least most unique).Checked → items.Checked := by
      intro checked
      cases checked with
      | array _ inner => exact inner
    have each (positive : 0 < count) := ih (errors.inner part) fun slot forced =>
      expands slot fun deep => .item (down deep ▸ positive) (forced deep)
    split
    · have exhausted := errors (.exhausted options.limits.maxAttempts (uniqueFragment count)) trivial
        False.elim
      refine (drawDistinct_meets exhausted count _ each [] []).mono fun drawn described => ?_
      obtain ⟨added, listed, counted, all⟩ := described
      exact ⟨added, listed, counted ▸ above, counted ▸ below, all⟩
    · refine bind_meets (many_meets count each) fun values described => pure_meets ?_
      obtain ⟨counted, all⟩ := described
      exact ⟨values, rfl, counted ▸ above, counted ▸ below, all⟩
  | tuple items ih =>
    have each : ∀ item ∈ items, MeetsYields options depth allowed reach expand twin item := by
      intro item present
      refine ih item present (errors.inner fun checked => ?_) fun slot forced =>
        expands slot fun deep => .component present (forced deep)
      cases checked with
      | tuple each => exact each item present
    exact bind_meets (drawAll_meets each) fun values yielded => pure_meets ⟨values, rfl, yielded⟩
  | record fields ih =>
    have each : ∀ field ∈ fields, MeetsYields options depth allowed reach expand twin field.2 := by
      intro field present
      refine ih field present (errors.inner fun checked => ?_) fun slot forced =>
        expands slot fun deep => .field present (forced deep)
      cases checked with
      | record each => exact each field present
    exact drawFields_meets each []
  | dictionary keys values maxEntries reserved excluded keysIh valuesIh =>
    refine bind_meets (drawSize_meets fun below => absurd below (Nat.not_lt_zero _))
      fun count within => ?_
    obtain ⟨down, -, below⟩ := within
    -- A dictionary that winds down is empty, so its keys and values then force nothing.
    have shallow (positive : 0 < count) : ¬ options.limits.windDownDepth ≤ depth :=
      fun deep => absurd (down deep) (by omega)
    have parts : (dictionary keys values maxEntries reserved excluded).Checked →
        keys.Checked ∧ values.Checked := by
      intro checked
      cases checked with
      | dictionary keys values => exact ⟨keys, values⟩
    refine (drawEntries_meets count
      (fun positive => keysIh (errors.inner fun checked => (parts checked).1) fun slot _ =>
        expands slot fun deep => absurd deep (shallow positive))
      (fun positive => valuesIh (errors.inner fun checked => (parts checked).2) fun slot _ =>
        expands slot fun deep => absurd deep (shallow positive))
      []).mono fun drawn described => ?_
    obtain ⟨members, same, bounded, all⟩ := described
    refine ⟨members, same, ?_, fun member present => ?_⟩
    · rw [List.length_nil] at bounded
      omega
    · exact (all member present).resolve_left List.not_mem_nil
  | arbitrary nesting maxEntries maxLength =>
    exact drawArbitrary_meets rfl (fun _ _ => rfl) maxEntries nesting
  | filter inner fragment accepts ih =>
    have part : (filter inner fragment accepts).Checked → inner.Checked := by
      intro checked
      cases checked with
      | filter inner => exact inner
    exact drawAccepted_meets (errors (.exhausted _ _) trivial False.elim)
      (ih (errors.inner part) fun slot forced => expands slot fun deep => .filter (forced deep)) _
  | map inner apply ih =>
    have part : (map inner apply).Checked → inner.Checked := by
      intro checked
      cases checked with
      | map inner => exact inner
    exact bind_meets
      (ih (errors.inner part) fun slot forced => expands slot fun deep => .map (forced deep))
      fun value yielded => pure_meets ⟨value, yielded, rfl⟩
  | reference pointer slot => exact expands slot fun _ => .reference
  | closure draw => exact ofRandom_meets fun source => ⟨source, rfl⟩

/-- Where all of its own errors are allowed, a generator need not be checked. -/
theorem drawWith_meets (harmless : ∀ error : SampleError, error.IsOwn → allowed error)
    {generator : Generator}
    (expands : ∀ slot, (options.limits.windDownDepth ≤ depth → generator.Forces slot) →
      Meets depth allowed (reach slot) (expand slot) (twin slot)) :
    MeetsYields options depth allowed reach expand twin generator :=
  drawWith_meets_checked (fun error own _ => harmless error own) expands

end Meets

end Generator

end SchemaSampler
