import SchemaSampler.Generator.Draw
import SchemaSampler.Proofs.Entries

/-!
# A logic for draws

`Draw.Meets depth allowed post draw twin` says what two draws do from any source at a reference
depth: they do the same, they leave the depth as it was, an error is an allowed one and a value
meets the postcondition. With one draw in both places it specifies that draw; with two it also
says that what tells them apart is never reached from there.

Every way to build draws has a rule. Bodies of loops are specified once and the rule of the loop
does the induction; the ranges of the random primitives are bounded first.

Results:
1. `Random.offset_lt`, `Random.size_mem`: random numbers stay in their ranges.
2. `bind_meets`, `deeper_meets` and the rules for the other steps.
3. `many_meets`, `drawDistinct_meets`, `drawEntries_meets`, `drawAccepted_meets`: the loops.
4. `drawSize_meets`, `drawPlace_meets`: what winding down decides.
-/

namespace SchemaSampler

/-! ## Ranges of random numbers -/

namespace Random

theorem word_lt (width : Width) (source : Source) : (word width source).1 < width.count := by
  cases width with
  | single => exact UInt32.toNat_lt _
  | double => exact UInt64.toNat_lt _

/-- Where the remainder of a product leaves room for a carry, the quotient is not the last one. -/
theorem succ_quotient_lt {count range drawn : Nat} (below : drawn < count)
    (unsettled : count - range < drawn * range % count) : drawn * range / count + 1 < range := by
  have split := Nat.div_add_mod (drawn * range) count
  have bounded : drawn * range + range ≤ count * range := by
    calc drawn * range + range = (drawn + 1) * range := by rw [Nat.add_mul, Nat.one_mul]
      _ ≤ count * range := Nat.mul_le_mul_right range below
  have remainder : drawn * range % count < count := Nat.mod_lt _ (by omega)
  apply Nat.lt_of_not_le
  intro last
  have product : count * range ≤ count * (drawn * range / count + 1) := Nat.mul_le_mul_left count last
  rw [Nat.mul_add, Nat.mul_one] at product
  omega

theorem offset_lt {range : Nat} (positive : 0 < range) (width : Width) (source : Source) :
    (offset width range source).1 < range := by
  have below := word_lt width source
  have quotient : (word width source).1 * range / width.count < range :=
    Nat.div_lt_of_lt_mul (Nat.mul_lt_mul_of_pos_right below positive)
  unfold offset
  simp only [bind, StateT.bind]
  split
  next drawn rest ran =>
  rw [ran] at below quotient
  split
  next unsettled =>
    -- The second word adds at most one to the quotient, and here the quotient is not the last.
    have either : ∀ (carried : Prop) [Decidable carried], (if carried
        then drawn * range / width.count + 1 else drawn * range / width.count) < range := by
      intro carried _
      split
      · exact succ_quotient_lt below unsettled
      · exact quotient
    exact either _
  next => exact quotient

theorem size_mem {low high : Nat} (ordered : low ≤ high) (source : Source) :
    low ≤ (size low high source).1 ∧ (size low high source).1 ≤ high := by
  have drawn : (offset (sizeWidth high) (high - low + 1) source).1 < high - low + 1 :=
    offset_lt (Nat.succ_pos _) _ source
  have sum : (size low high source).1 =
      low + (offset (sizeWidth high) (high - low + 1) source).1 := rfl
  omega

end Random

/-! ## Specifications -/

/-- A result is an allowed error or a value that meets the postcondition. -/
def Outcome {α : Type} (allowed : SampleError → Prop) (post : α → Prop) :
    Except SampleError α → Prop
  | .ok value => post value
  | .error error => allowed error

namespace Draw

variable {α β : Type} {depth : Nat} {allowed : SampleError → Prop}

/-- At a depth two draws do the same, restore the depth, fail with allowed errors only and give
values that meet a postcondition. -/
def Meets (depth : Nat) (allowed : SampleError → Prop) (post : α → Prop)
    (draw twin : Draw α) : Prop :=
  ∀ source, ∃ result rest, draw ⟨source, depth⟩ = (result, ⟨rest, depth⟩) ∧
    twin ⟨source, depth⟩ = (result, ⟨rest, depth⟩) ∧ Outcome allowed post result

namespace Meets

variable {post : α → Prop} {draw twin : Draw α}

theorem agree (meets : Meets depth allowed post draw twin) (source : Source) :
    draw ⟨source, depth⟩ = twin ⟨source, depth⟩ := by
  obtain ⟨result, rest, ran, ranTwin, -⟩ := meets source
  rw [ran, ranTwin]

theorem depth_eq (meets : Meets depth allowed post draw twin) (source : Source) :
    (draw ⟨source, depth⟩).2.depth = depth := by
  obtain ⟨result, rest, ran, -, -⟩ := meets source
  rw [ran]

theorem allows (meets : Meets depth allowed post draw twin) {source : Source}
    {error : SampleError} (failed : (draw ⟨source, depth⟩).1 = .error error) : allowed error := by
  obtain ⟨result, rest, ran, -, outcome⟩ := meets source
  rw [ran] at failed
  subst failed
  exact outcome

theorem holds (meets : Meets depth allowed post draw twin) {source : Source} {value : α}
    (drawn : (draw ⟨source, depth⟩).1 = .ok value) : post value := by
  obtain ⟨result, rest, ran, -, outcome⟩ := meets source
  rw [ran] at drawn
  subst drawn
  exact outcome

theorem mono {weaker : α → Prop} (meets : Meets depth allowed post draw twin)
    (implies : ∀ value, post value → weaker value) : Meets depth allowed weaker draw twin := by
  intro source
  obtain ⟨result, rest, ran, ranTwin, outcome⟩ := meets source
  refine ⟨result, rest, ran, ranTwin, ?_⟩
  cases result with
  | ok value => exact implies value outcome
  | error error => exact outcome

theorem diagonal (meets : Meets depth allowed post draw twin) :
    Meets depth allowed post draw draw := by
  intro source
  obtain ⟨result, rest, ran, -, outcome⟩ := meets source
  exact ⟨result, rest, ran, ran, outcome⟩

/-- Only what draws do at the depth counts. -/
theorem congr {other otherTwin : Draw α} (meets : Meets depth allowed post draw twin)
    (same : ∀ source, other ⟨source, depth⟩ = draw ⟨source, depth⟩)
    (sameTwin : ∀ source, otherTwin ⟨source, depth⟩ = twin ⟨source, depth⟩) :
    Meets depth allowed post other otherTwin := by
  intro source
  rw [same, sameTwin]
  exact meets source

end Meets

/-! ## Rules for single steps -/

section Steps

variable {post : α → Prop}

theorem pure_meets {value : α} (holds : post value) :
    Meets depth allowed post (pure value : Draw α) (pure value) :=
  fun source => ⟨.ok value, source, rfl, rfl, holds⟩

theorem fail_meets {error : SampleError} (harmless : allowed error) :
    Meets depth allowed post (fail error) (fail error) :=
  fun source => ⟨.error error, source, rfl, rfl, harmless⟩

theorem ofRandom_meets {random : Random α} (holds : ∀ source, post (random source).1) :
    Meets depth allowed post (ofRandom random) (ofRandom random) :=
  fun source => ⟨.ok (random source).1, (random source).2, rfl, rfl, holds source⟩

theorem depth_meets : Meets depth allowed (fun inside => inside = depth) Draw.depth Draw.depth :=
  fun source => ⟨.ok depth, source, rfl, rfl, rfl⟩

theorem bind_of_ok {draw : Draw β} {next : β → Draw α} {before after : Cursor} {value : β}
    (ran : draw before = (.ok value, after)) : (draw >>= next) before = next value after := by
  show Draw.bind draw next before = _
  unfold Draw.bind
  rw [ran]

theorem bind_of_error {draw : Draw β} {next : β → Draw α} {before after : Cursor}
    {error : SampleError} (ran : draw before = (.error error, after)) :
    (draw >>= next) before = (.error error, after) := by
  show Draw.bind draw next before = _
  unfold Draw.bind
  rw [ran]

theorem bind_meets {between : β → Prop} {draw twin : Draw β} {next nextTwin : β → Draw α}
    (first : Meets depth allowed between draw twin)
    (second : ∀ value, between value → Meets depth allowed post (next value) (nextTwin value)) :
    Meets depth allowed post (draw >>= next) (twin >>= nextTwin) := by
  intro source
  obtain ⟨result, rest, ran, ranTwin, outcome⟩ := first source
  cases result with
  | ok value =>
    rw [bind_of_ok ran, bind_of_ok ranTwin]
    exact second value outcome rest
  | error error => exact ⟨.error error, rest, bind_of_error ran, bind_of_error ranTwin, outcome⟩

/-- One reference deeper, and back. -/
theorem deeper_meets {draw twin : Draw α} (inside : Meets (depth + 1) allowed post draw twin) :
    Meets depth allowed post (deeper draw) (deeper twin) := by
  intro source
  obtain ⟨result, rest, ran, ranTwin, outcome⟩ := inside source
  refine ⟨result, rest, ?_, ?_, outcome⟩
  · rw [deeper]
    simp only [ran]
  · rw [deeper]
    simp only [ranTwin]

theorem item_meets {items : List α} {place : Nat}
    (outside : items.length ≤ place → allowed (.defect .indexOutside))
    (holds : ∀ value ∈ items, post value) :
    Meets depth allowed post (item items place) (item items place) := by
  unfold item
  split
  next value found => exact pure_meets (holds value (List.mem_of_getElem? found))
  next missing => exact fail_meets (outside (List.getElem?_eq_none_iff.mp missing))

end Steps

theorem position_meets {count : Nat} (empty : count = 0 → allowed (.defect .emptyRange)) :
    Meets depth allowed (fun place => place < count) (position count) (position count) := by
  unfold position
  split
  next zero => exact fail_meets (empty zero)
  next nonzero =>
    exact ofRandom_meets fun source => Random.offset_lt (Nat.pos_of_ne_zero nonzero) _ source

theorem size_meets {low high : Nat} (empty : high < low → allowed (.defect .emptyRange)) :
    Meets depth allowed (fun count => low ≤ count ∧ count ≤ high) (size low high)
      (size low high) := by
  unfold size
  split
  next reversed => exact fail_meets (empty reversed)
  next ordered => exact ofRandom_meets fun source => Random.size_mem (Nat.le_of_not_lt ordered) source

theorem integer_meets {low high : Int} (empty : high < low → allowed (.defect .emptyRange)) :
    Meets depth allowed (fun _ => True) (integer low high) (integer low high) := by
  unfold integer
  split
  next reversed => exact fail_meets (empty reversed)
  · exact ofRandom_meets fun _ => trivial

theorem float_meets {low high : Binary64}
    (empty : (low.le high && (high.sub low).isFinite) = false → allowed (.defect .emptyRange)) :
    Meets depth allowed (fun _ => True) (float low high) (float low high) := by
  unfold float
  split
  · exact ofRandom_meets fun _ => trivial
  next unordered => exact fail_meets (empty (Bool.not_eq_true _ ▸ unordered))

/-! ## Rules for repetition

What is repeated has to meet its specification only where it is drawn at all.
-/

section Repetition

variable {post : α → Prop} {draw twin : Draw α}

theorem manyOnto_meets (count : Nat) (each : 0 < count → Meets depth allowed post draw twin)
    (before : List α) :
    Meets depth allowed
      (fun values => ∃ added, values = added ++ before ∧ added.length = count ∧
        ∀ value ∈ added, post value)
      (manyOnto draw count before) (manyOnto twin count before) := by
  induction count generalizing before with
  | zero => exact pure_meets ⟨[], rfl, rfl, fun _ present => nomatch present⟩
  | succ count ih =>
    refine bind_meets (each (Nat.succ_pos count)) fun value holds => ?_
    refine (ih (fun _ => each (Nat.succ_pos count)) (value :: before)).mono
      fun values described => ?_
    obtain ⟨added, listed, counted, all⟩ := described
    refine ⟨added ++ [value], by rw [listed, List.append_assoc]; rfl, by simp [counted], ?_⟩
    intro other present
    cases List.mem_append.mp present with
    | inl later => exact all other later
    | inr first => exact (List.mem_singleton.mp first) ▸ holds

theorem many_meets (count : Nat) (each : 0 < count → Meets depth allowed post draw twin) :
    Meets depth allowed (fun values => values.length = count ∧ ∀ value ∈ values, post value)
      (many draw count) (many twin count) := by
  refine bind_meets (manyOnto_meets count each []) fun values described => ?_
  obtain ⟨added, listed, counted, all⟩ := described
  rw [List.append_nil] at listed
  subst listed
  exact pure_meets ⟨by rw [List.length_reverse, counted],
    fun value present => all value (List.mem_reverse.mp present)⟩

/-- Fewer repetitions than `spare` are tolerated, so the items found are as many as wanted. -/
theorem drawDistinct_meets {options : Options} {draw twin : Draw Json} {post : Json → Prop}
    {length : Nat}
    (exhausted : allowed (.exhausted options.limits.maxAttempts (uniqueFragment length)))
    (needed spare : Nat) (each : 0 < needed → Meets depth allowed post draw twin)
    (seen found : List Json) :
    Meets depth allowed
      (fun value => ∃ added, value = .arr (found.reverse ++ added) ∧ added.length = needed ∧
        ∀ item ∈ added, post item)
      (drawDistinct options draw length needed spare seen found)
      (drawDistinct options twin length needed spare seen found) := by
  induction needed, spare, seen, found using drawDistinct.induct options with
  | case1 spare seen found =>
    rw [drawDistinct, drawDistinct]
    exact pure_meets ⟨[], by rw [List.append_nil], rfl, fun _ present => nomatch present⟩
  | case2 needed seen found =>
    rw [drawDistinct, drawDistinct]
    exact fail_meets exhausted
  | case3 needed spare seen found repeated fresh =>
    rw [drawDistinct, drawDistinct]
    refine bind_meets (each (Nat.succ_pos needed)) fun candidate holds => ?_
    dsimp only
    split
    next => exact repeated each
    next =>
      refine (fresh candidate fun _ => each (Nat.succ_pos needed)).mono fun value described => ?_
      obtain ⟨added, listed, counted, all⟩ := described
      refine ⟨candidate :: added, ?_, by rw [List.length_cons, counted], ?_⟩
      · rw [listed, List.reverse_cons, List.append_assoc]
        rfl
      · intro item present
        cases List.mem_cons.mp present with
        | inl same => exact same ▸ holds
        | inr later => exact all item later

theorem drawEntries_meets {admits : String → Bool} {key keyTwin value valueTwin : Draw Json}
    {keyPost valuePost : Json → Prop} (count : Nat)
    (keys : 0 < count → Meets depth allowed keyPost key keyTwin)
    (values : 0 < count → Meets depth allowed valuePost value valueTwin) (before : Entries Json) :
    Meets depth allowed
      (fun drawn => ∃ members, drawn = .obj members ∧
        members.length ≤ before.length + count ∧
        ∀ member ∈ members, member ∈ before ∨
          (admits member.1 = true ∧ keyPost (.str member.1) ∧ valuePost member.2))
      (drawEntries admits key value count before)
      (drawEntries admits keyTwin valueTwin count before) := by
  induction count generalizing before with
  | zero => exact pure_meets ⟨before, rfl, Nat.le_refl _, fun _ present => .inl present⟩
  | succ count ih =>
    have keys := keys (Nat.succ_pos count)
    have values := values (Nat.succ_pos count)
    -- A key that is no text or not admitted uses up its turn without an entry.
    have skipped := (ih (fun _ => keys) (fun _ => values) before).mono fun drawn described =>
      show ∃ members, drawn = .obj members ∧ members.length ≤ before.length + (count + 1) ∧ _ from
        let ⟨members, same, bounded, all⟩ := described
        ⟨members, same, Nat.le_succ_of_le bounded, all⟩
    rw [drawEntries, drawEntries]
    refine bind_meets keys fun name named => ?_
    split
    next name =>
      split
      next admitted =>
        refine bind_meets values fun member holds => ?_
        refine (ih (fun _ => keys) (fun _ => values) (Entries.insert name member before)).mono
          fun drawn described => ?_
        obtain ⟨members, same, bounded, all⟩ := described
        have longer := Entries.length_insert_le name member before
        refine ⟨members, same, by omega, fun other present => ?_⟩
        cases all other present with
        | inr added => exact .inr added
        | inl inserted =>
          cases Entries.mem_of_mem_insert inserted with
          | inl new => exact .inr (new ▸ ⟨admitted, named, holds⟩)
          | inr old => exact .inl old
      next => exact skipped
    next => exact skipped

theorem drawAccepted_meets {inner twin : Draw Json} {accepts : Json → Bool}
    {exhausted : SampleError} {post : Json → Prop} (harmless : allowed exhausted)
    (each : Meets depth allowed post inner twin) (attempts : Nat) :
    Meets depth allowed (fun value => post value ∧ accepts value = true)
      (drawAccepted inner accepts exhausted attempts)
      (drawAccepted twin accepts exhausted attempts) := by
  induction attempts with
  | zero => exact fail_meets harmless
  | succ attempts ih =>
    refine bind_meets each fun candidate holds => ?_
    split
    next accepted => exact pure_meets ⟨holds, accepted⟩
    next => exact ih

end Repetition

/-! ## Rules for sizes and places -/

section WindingDown

variable {options : Options}

theorem windingDown_meets : Meets depth allowed
    (fun winding => winding = decide (options.limits.windDownDepth ≤ depth))
    (windingDown options) (windingDown options) :=
  bind_meets depth_meets fun _ same => pure_meets (by rw [same])

/-- Winding down takes the least size. -/
theorem drawSize_meets {least most : Nat} (empty : most < least → allowed (.defect .emptyRange)) :
    Meets depth allowed
      (fun count => (options.limits.windDownDepth ≤ depth → count = least) ∧
        least ≤ count ∧ count ≤ max least most)
      (drawSize options least most) (drawSize options least most) := by
  refine bind_meets windingDown_meets fun winding known => ?_
  split
  next down => exact pure_meets ⟨fun _ => rfl, Nat.le_refl _, Nat.le_max_left _ _⟩
  next up =>
    -- Above the winding down depth the first claim has nothing to say.
    refine (size_meets empty).mono fun count within => ?_
    have above : ¬ options.limits.windDownDepth ≤ depth := by
      intro deep
      rw [known, decide_eq_true deep] at up
      exact up rfl
    exact ⟨fun deep => absurd deep above, within.1, Nat.le_trans within.2 (Nat.le_max_right _ _)⟩

/-- Winding down takes the minimal place, if there is one; any other place is among those counted. -/
theorem drawPlace_meets {count : Nat} (empty : count = 0 → allowed (.defect .emptyRange))
    (minimal : Option Nat) :
    Meets depth allowed
      (fun place => (options.limits.windDownDepth ≤ depth → ∀ least, minimal = some least →
        place = least) ∧ (place < count ∨ minimal = some place))
      (drawPlace options count minimal) (drawPlace options count minimal) := by
  cases minimal with
  | none =>
    exact (position_meets empty).mono fun _ below => ⟨fun _ _ => nofun, .inl below⟩
  | some least =>
    refine bind_meets windingDown_meets fun winding known => ?_
    split
    next down =>
      exact pure_meets ⟨fun _ other same => Option.some.inj same, .inr rfl⟩
    next up =>
      refine (position_meets empty).mono fun place below => ⟨fun deep => ?_, .inl below⟩
      rw [known, decide_eq_true deep] at up
      exact absurd rfl up

end WindingDown

end Draw

end SchemaSampler
