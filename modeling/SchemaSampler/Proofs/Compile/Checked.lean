import SchemaSampler.Proofs.Binary64.Order
import SchemaSampler.Proofs.Compile.Leaves

/-!
# Checks of compiled generators

Every generator that compilation makes has passed the checks of its construction. Ranges are
ordered although their ends are rounded and clamped on the way from floats to integers, and choices
and enumerations are not empty.

Results:
1. `Multiples.within_ordered`, `NumericBounds.integerRange_ordered`, `numberRange_ordered`: ranges.
2. `Generator.integerOf_checked`, `choiceOf_checked` and the other constructions.
3. `Compiler.object_checked`: objects.
4. `Compiler.compile_checked`: nodes.
-/

namespace SchemaSampler

/-! ## Ranges -/

theorem checkStep_eq_ok {step : Binary64} (passed : checkStep step = .ok ()) :
    step.isFinite = true ∧ step.le .zero = false := by
  unfold checkStep at passed
  split at passed
  next => cases passed
  next positive => simpa using positive

/-- Rounding towards each other and clamping keep the factors in order. -/
theorem Multiples.within_ordered {low high step : Binary64} {multiples : Multiples}
    (number : low.isNaN = false) (other : high.isNaN = false)
    (built : Multiples.within low high step = .ok multiples) :
    multiples.least ≤ multiples.most := by
  obtain ⟨_, passed, built⟩ := Except.bind_eq_ok.mp built
  obtain ⟨finite, positive⟩ := checkStep_eq_ok passed
  have nonzero := Binary64.absUnits_ne_zero (Binary64.isNaN_of_isFinite finite) positive
  dsimp only at built
  split at built
  next => cases built
  next ordered =>
    cases built
    have least : ((low.div step).ceil).isNaN = false := by
      rw [Binary64.isNaN_ceil]
      exact Binary64.isNaN_div number finite nonzero
    have most : ((high.div step).floor).isNaN = false := by
      rw [Binary64.isNaN_floor]
      exact Binary64.isNaN_div other finite nonzero
    exact Binary64.toInt64_le_toInt64
      (Binary64.le_of_lt_eq_false least most (Bool.not_eq_true _ ▸ ordered))

namespace NumericBounds

theorem integerRange_ordered {bounds : NumericBounds} {low high : Int}
    (built : bounds.integerRange = .ok (low, high)) : low ≤ high := by
  -- Whichever sides are declared, the ends are compared before they are returned.
  have compared : ∀ range : Int × Int, (if range.2 < range.1
      then .error (.emptyIntegerRange range.1 range.2) else .ok range : Except InvalidReason _) =
        .ok (low, high) → low ≤ high := by
    intro range passed
    split at passed
    next => cases passed
    next ordered =>
      cases passed
      exact not_lt.mp ordered
  unfold integerRange at built
  dsimp only at built
  split at built
  all_goals exact compared _ built

theorem numberRange_ordered {bounds : NumericBounds} {low high : Binary64}
    (built : bounds.numberRange = .ok (low, high)) :
    low.isNaN = false ∧ high.isNaN = false ∧ low.le high = true ∧
      (high.sub low).isFinite = true := by
  have compared : ∀ range : Binary64 × Binary64,
      (if !(range.1.isFinite && range.2.isFinite && (range.2.sub range.1).isFinite)
        then .error (.infiniteNumberRange range.1 range.2)
        else if range.2.lt range.1 then .error (.emptyNumberRange range.1 range.2)
        else .ok range : Except InvalidReason _) = .ok (low, high) →
      low.isNaN = false ∧ high.isNaN = false ∧ low.le high = true ∧
        (high.sub low).isFinite = true := by
    intro range passed
    split at passed
    next => cases passed
    next finite =>
      split at passed
      next => cases passed
      next ordered =>
        cases passed
        simp only [Bool.not_eq_true', Bool.not_eq_false, Bool.and_eq_true] at finite
        have number := Binary64.isNaN_of_isFinite finite.1.1
        have other := Binary64.isNaN_of_isFinite finite.1.2
        exact ⟨number, other,
          Binary64.le_of_lt_eq_false number other (Bool.not_eq_true _ ▸ ordered), finite.2⟩
  unfold numberRange at built
  dsimp only at built
  split at built
  all_goals exact compared _ built

end NumericBounds

/-! ## Checked constructions -/

namespace Generator

variable {generator : Generator}

theorem enumerationOf_checked {label : String} {values : List Json}
    (built : enumerationOf label values = .ok generator) : generator.Checked := by
  unfold enumerationOf at built
  split at built
  next => cases built
  next some =>
    cases built
    exact .enumeration (by simpa using some)

theorem integerOf_checked {bounds : NumericBounds} (built : integerOf bounds = .ok generator) :
    generator.Checked := by
  obtain ⟨⟨low, high⟩, range, built⟩ := Except.bind_eq_ok.mp built
  dsimp only at built
  split at built
  next =>
    cases built
    exact .integer (NumericBounds.integerRange_ordered range)
  next =>
    obtain ⟨whole, -, built⟩ := Except.bind_eq_ok.mp built
    obtain ⟨multiples, within, built⟩ := Except.bind_eq_ok.mp built
    cases built
    exact .filter (.wholeMultiple (Multiples.within_ordered (Binary64.isNaN_ofInt low)
      (Binary64.isNaN_ofInt high) within))

theorem numberOf_checked {bounds : NumericBounds} (built : numberOf bounds = .ok generator) :
    generator.Checked := by
  obtain ⟨⟨low, high⟩, range, built⟩ := Except.bind_eq_ok.mp built
  obtain ⟨number, other, ordered, finite⟩ := NumericBounds.numberRange_ordered range
  dsimp only at built
  split at built
  next =>
    cases built
    exact .number ordered finite
  next =>
    obtain ⟨multiples, within, built⟩ := Except.bind_eq_ok.mp built
    cases built
    exact .filter (.multiple (Multiples.within_ordered number other within))

theorem choiceOf_checked {label : String} {alternatives : List Generator} {minimal : Option Nat}
    (each : ∀ alternative ∈ alternatives, alternative.Checked)
    (built : choiceOf label alternatives minimal = .ok generator) : generator.Checked := by
  unfold choiceOf at built
  split at built
  next => cases built
  next some =>
    cases built
    refine .choice (by simpa using some) (fun place found => ?_) each
    exact of_decide_eq_true (Option.filter_eq_some_iff.mp found).2

theorem arrayOf_checked {items : Generator} {least most : Nat} {unique : Bool}
    (inner : items.Checked) (built : arrayOf items least most unique = .ok generator) :
    generator.Checked := by
  unfold arrayOf at built
  split at built
  next => cases built
  next ordered =>
    cases built
    exact .array (Nat.le_of_not_lt ordered) inner

end Generator

namespace Compiler

variable {compiler : Compiler} {generator : Generator}

theorem arbitrary_checked (compiler : Compiler) : compiler.arbitrary.Checked := .arbitrary

theorem text_checked {spec : TextSpec} (built : compiler.text spec = .ok generator) :
    generator.Checked := by
  unfold text at built
  split at built
  next =>
    obtain ⟨_, -, rfl⟩ := Generator.patternOf_eq_ok.mp built
    exact .pattern
  next =>
    obtain ⟨values, -, built⟩ := Except.bind_eq_ok.mp built
    exact Generator.enumerationOf_checked built
  next =>
    cases built
    exact .text

/-! ## Objects -/

/-- The generators of inner schemas, wherever they compile, are checked. -/
structure ObjectParts.Checked (parts : ObjectParts) : Prop where
  properties : ∀ entry ∈ parts.properties, ∀ field, entry.2 = .ok field → field.Checked
  additional : ∀ values, parts.additional = some (.ok values) → values.Checked
  patterns : ∀ entry ∈ parts.patterns, ∀ values, entry.2 = .ok values → values.Checked

namespace ObjectPieces

variable {parts : ObjectParts} {pieces : ObjectPieces compiler parts}

theorem additional_checked (checked : parts.Checked) (compiled : pieces.Compiled)
    {values : Generator} (found : pieces.additional = some values) : values.Checked := by
  refine checked.additional values ?_
  rw [optionally_eq_ok compiled.additional, found]
  rfl

theorem field_checked (checked : parts.Checked) (compiled : pieces.Compiled) {name : String}
    {field : Generator} (found : Entries.get? pieces.fields name = some field) : field.Checked := by
  rcases get?_fields compiled found with declared | ⟨-, -, rfl⟩
  · exact checked.properties _ (Entries.mem_of_get?_eq_some declared) field rfl
  · cases extra : pieces.additional with
    | none => exact arbitrary_checked compiler
    | some values => exact additional_checked checked compiled extra

theorem container_checked (checked : parts.Checked) (compiled : pieces.Compiled)
    {container : String × Generator} (present : container ∈ pieces.containers) :
    container.2.Checked := by
  rcases mem_containers present with ⟨values, found, rfl⟩ | ⟨rfl, -⟩
  · exact .dictionary .text (additional_checked checked compiled found)
  · refine .record fun group listed => ?_
    obtain ⟨synthesizer, values, source, -, dictionary⟩ :=
      ObjectParts.mem_groups compiled.groups listed
    rw [dictionary]
    exact .dictionary .pattern (checked.patterns _ source values rfl)

theorem record_checked (checked : parts.Checked) (compiled : pieces.Compiled) (keys : List String) :
    (pieces.record keys).Checked := by
  refine .record fun field present => ?_
  rcases List.mem_append.mp present with own | container
  · obtain ⟨key, -, paired⟩ := List.mem_filterMap.mp own
    obtain ⟨generator, found, rfl⟩ := Option.map_eq_some_iff.mp paired
    exact field_checked checked compiled found
  · exact container_checked checked compiled container

end ObjectPieces

theorem object_checked {parts : ObjectParts} (checked : parts.Checked)
    (compiled : compiler.object parts = .ok generator) : generator.Checked := by
  obtain ⟨pieces, built, ⟨subset, -, rfl⟩ | chosen⟩ := object_eq_ok compiled
  · exact ObjectPieces.record_checked checked built _
  · refine Generator.choiceOf_checked (fun record listed => ?_) chosen
    obtain ⟨subset, -, rfl⟩ := List.mem_map.mp listed
    exact ObjectPieces.record_checked checked built _

/-! ## Nodes -/

theorem memberFields_checked {members : List Generator}
    (each : ∀ member ∈ members, member.Checked) (place : Nat) :
    ∀ field ∈ memberFields place members, field.2.Checked := by
  induction members generalizing place with
  | nil => exact fun _ absent => nomatch absent
  | cons member rest ih =>
    intro field present
    rcases List.mem_cons.mp present with rfl | later
    · exact each member List.mem_cons_self
    · exact ih (fun other behind => each other (List.mem_cons_of_mem _ behind)) _ field later

/-- A node compiles to a checked generator. -/
theorem compile_checked (closures : compiler.registry.Closures) {node : Node}
    (compiled : compiler.compile node = .ok generator) : generator.Checked := by
  induction node using Node.induction generalizing generator with
  | step node ih =>
    have all : ∀ {nodes : List Node} {generators : List Generator},
        (∀ inner ∈ nodes, inner.Inside node) → nodes.mapM compiler.compile = .ok generators →
        ∀ generator ∈ generators, generator.Checked := by
      intro nodes generators inside mapped generator present
      obtain ⟨inner, listed, own⟩ := Generator.exists_left_of_mem (Except.mapM_eq_ok mapped) present
      exact ih inner (inside inner listed) own
    cases node with
    | null =>
      cases compiled
      exact .constant
    | boolean =>
      cases compiled
      exact .boolean
    | constant =>
      cases compiled
      exact .constant
    | enumeration => exact Generator.enumerationOf_checked (Except.asInvalid_eq_ok.mp compiled)
    | integer => exact Generator.integerOf_checked (Except.asInvalid_eq_ok.mp compiled)
    | number => exact Generator.numberOf_checked (Except.asInvalid_eq_ok.mp compiled)
    | text => exact text_checked (Except.asInvalid_eq_ok.mp compiled)
    | reference =>
      rw [compile_reference] at compiled
      obtain ⟨slot, -, same⟩ := Except.bind_eq_ok.mp compiled
      cases same
      exact .reference
    | list items bounds =>
      rw [compile_list] at compiled
      obtain ⟨inner, own, built⟩ := Except.bind_eq_ok.mp compiled
      exact Generator.arrayOf_checked (ih items .items own) (Except.asInvalid_eq_ok.mp built)
    | tuple items =>
      rw [compile_tuple] at compiled
      obtain ⟨generators, mapped, same⟩ := Except.bind_eq_ok.mp compiled
      cases same
      exact .tuple (all (fun _ => .component) mapped)
    | object spec =>
      rw [compile_object] at compiled
      refine object_checked ⟨?_, ?_, ?_⟩ compiled
      · rintro _ present field own
        obtain ⟨entry, listed, rfl⟩ := List.mem_map.mp present
        exact ih entry.2 (.property listed) own
      · intro values found
        change compiler.compileAdditional spec.additional = _ at found
        cases stated : spec.additional with
        | absent | forbidden =>
          rw [stated] at found
          cases found
        | anything =>
          rw [stated] at found
          cases found
          exact arbitrary_checked compiler
        | schema node =>
          rw [stated] at found
          exact ih node (.additional stated) (Option.some.inj found)
      · rintro _ present values own
        obtain ⟨entry, listed, rfl⟩ := List.mem_map.mp present
        exact ih entry.2 (.patterned listed) own
    | anyOf members =>
      rw [compile_anyOf] at compiled
      obtain ⟨generators, mapped, built⟩ := Except.bind_eq_ok.mp compiled
      exact Generator.choiceOf_checked (all (fun _ => .anyOf) mapped)
        (Except.asInvalid_eq_ok.mp built)
    | oneOf members =>
      rw [compile_oneOf] at compiled
      obtain ⟨generators, mapped, built⟩ := Except.bind_eq_ok.mp compiled
      exact Generator.choiceOf_checked (all (fun _ => .oneOf) mapped)
        (Except.asInvalid_eq_ok.mp built)
    | allOf members =>
      rw [compile_allOf] at compiled
      obtain ⟨generators, mapped, same⟩ := Except.bind_eq_ok.mp compiled
      cases same
      refine .record fun field present => ?_
      rw [List.mem_singleton.mp present]
      exact .record (memberFields_checked (all (fun _ => .allOf) mapped) 0)
    | negation =>
      obtain ⟨validator, -, rfl⟩ := negation_eq_ok compiled
      exact .filter (arbitrary_checked compiler)
    | custom =>
      obtain ⟨draw, rfl⟩ := find_eq_closure closures compiled
      exact .closure
    | anything =>
      cases compiled
      exact arbitrary_checked compiler

end Compiler

end SchemaSampler
