import SchemaSampler.Proofs.Draw.Streams
import SchemaSampler.Proofs.FirstOccurrences
import SchemaSampler.Proofs.Json.Equality

/-!
# Drawn arrays

An array draws its length and then its items. With distinct items it keeps the first occurrences
among them: `firstOccurrences` says which these are, `repetitions` how many others there were. The
loop goes on as long as items are missing and fewer repetitions were drawn than are tolerated, so
both counters of the loop are functions of the items that it has drawn.

Results:
1. `firstOccurrences_concat`, `repeated_or_found`: one more item.
2. `drawDistinct_eq_ok_iff`, `drawDistinct_eq_error_iff`: the loop.
3. `drawSize_eq_ok`: the length.
4. `Generator.array_draws`: arrays.
-/

namespace SchemaSampler

open Draw

/-! ## First occurrences -/

/-- The form in which drawn items are compared. -/
def comparisonKey (keys : SyntheticKeys) (item : Json) : Json := uniqueKey (hoist keys item)

/-- The items whose key no earlier one has. -/
def firstOccurrences (keys : SyntheticKeys) (drawn : List Json) : List Json :=
  drawn.eraseDupsBy fun item other => comparisonKey keys item == comparisonKey keys other

/-- How many items have a key that an earlier one has. -/
def repetitions (keys : SyntheticKeys) (drawn : List Json) : Nat :=
  drawn.length - (firstOccurrences keys drawn).length

section Occurrences

variable {keys : SyntheticKeys} {drawn later : List Json} {item : Json}

/-- The keys of the items found so far. -/
def foundKeys (keys : SyntheticKeys) (drawn : List Json) : List Json :=
  (firstOccurrences keys drawn).map (comparisonKey keys)

theorem firstOccurrences_concat : firstOccurrences keys (drawn ++ [item]) =
    if (foundKeys keys drawn).contains (comparisonKey keys item) then firstOccurrences keys drawn
    else firstOccurrences keys drawn ++ [item] := by
  rw [foundKeys, List.contains_eq_any_beq, List.any_map]
  exact eraseDupsBy_loop_concat

theorem length_firstOccurrences_le (keys : SyntheticKeys) (drawn : List Json) :
    (firstOccurrences keys drawn).length ≤ drawn.length := by
  induction drawn using List.reverseRecOn with
  | nil => exact Nat.le_refl 0
  | append_singleton drawn item ih =>
    rw [firstOccurrences_concat, List.length_append, List.length_singleton]
    split
    · exact Nat.le_succ_of_le ih
    · rw [List.length_append, List.length_singleton]
      exact Nat.succ_le_succ ih

/-- An item whose key was found before is a repetition. -/
theorem repeated_of_contains (old : (foundKeys keys drawn).contains (comparisonKey keys item)) :
    firstOccurrences keys (drawn ++ [item]) = firstOccurrences keys drawn ∧
      repetitions keys (drawn ++ [item]) = repetitions keys drawn + 1 := by
  have same := firstOccurrences_concat.trans (if_pos old)
  refine ⟨same, ?_⟩
  rw [repetitions, repetitions, same, List.length_append, List.length_singleton,
    Nat.sub_add_comm (length_firstOccurrences_le keys drawn)]

theorem found_of_not_contains
    (new : ¬ (foundKeys keys drawn).contains (comparisonKey keys item)) :
    firstOccurrences keys (drawn ++ [item]) = firstOccurrences keys drawn ++ [item] ∧
      repetitions keys (drawn ++ [item]) = repetitions keys drawn := by
  have longer := firstOccurrences_concat.trans (if_neg new)
  refine ⟨longer, ?_⟩
  rw [repetitions, repetitions, longer, List.length_append, List.length_append,
    List.length_singleton, Nat.add_sub_add_right]

/-- One more item is either a repetition or found. -/
theorem repeated_or_found (keys : SyntheticKeys) (drawn : List Json) (item : Json) :
    (firstOccurrences keys (drawn ++ [item]) = firstOccurrences keys drawn ∧
      repetitions keys (drawn ++ [item]) = repetitions keys drawn + 1) ∨
    (firstOccurrences keys (drawn ++ [item]) = firstOccurrences keys drawn ++ [item] ∧
      repetitions keys (drawn ++ [item]) = repetitions keys drawn) := by
  by_cases old : (foundKeys keys drawn).contains (comparisonKey keys item)
  · exact .inl (repeated_of_contains old)
  · exact .inr (found_of_not_contains old)

theorem repetitions_le_concat (keys : SyntheticKeys) (drawn : List Json) (item : Json) :
    repetitions keys drawn ≤ repetitions keys (drawn ++ [item]) := by
  rcases repeated_or_found keys drawn item with ⟨-, repeated⟩ | ⟨-, repeated⟩ <;> omega

theorem length_le_concat (keys : SyntheticKeys) (drawn : List Json) (item : Json) :
    (firstOccurrences keys drawn).length ≤ (firstOccurrences keys (drawn ++ [item])).length := by
  rcases repeated_or_found keys drawn item with ⟨found, -⟩ | ⟨found, -⟩
  · rw [found]
  · rw [found]
    exact (List.prefix_append _ _).length_le

end Occurrences

section Distinct

variable {options : Options} {draw : Draw Json} {length : Nat} {cursor last : Cursor}
  {value : Json} {error : SampleError}

/-- How many repetitions end the drawing of distinct items, one at least. -/
def tolerance (options : Options) : Nat := max 1 options.limits.maxAttempts

/-- Items are missing and repetitions are tolerated. -/
def Unfinished (options : Options) (length : Nat) (drawn : List Json) : Prop :=
  (firstOccurrences options.keys drawn).length < length ∧
    repetitions options.keys drawn < tolerance options

theorem tolerance_pos : 0 < tolerance options :=
  Nat.lt_of_lt_of_le Nat.one_pos (Nat.le_max_left 1 _)

theorem Unfinished.of_concat {drawn : List Json} {item : Json}
    (more : Unfinished options length (drawn ++ [item])) : Unfinished options length drawn :=
  ⟨Nat.lt_of_le_of_lt (length_le_concat options.keys drawn item) more.1,
    Nat.lt_of_le_of_lt (repetitions_le_concat options.keys drawn item) more.2⟩

/-- The most items that are drawn for an array of distinct ones. -/
def mostDraws (options : Options) (length : Nat) : Nat :=
  if length = 0 then 0 else length - 1 + tolerance options

theorem Unfinished.length_lt {drawn : List Json} (more : Unfinished options length drawn) :
    drawn.length < mostDraws options length := by
  have fewer := length_firstOccurrences_le options.keys drawn
  obtain ⟨missing, tolerated⟩ := more
  rw [repetitions] at tolerated
  rw [mostDraws, if_neg (by omega)]
  omega

theorem length_le_of_heldBefore {drawn : List Json}
    (held : HeldBefore (Unfinished options length) drawn) :
    drawn.length ≤ mostDraws options length := by
  cases drawn using List.reverseRecOn with
  | nil => exact Nat.zero_le _
  | append_singleton drawn item =>
    rw [List.length_append, List.length_singleton]
    exact held.before_last.length_lt

/-- What becomes of the items drawn. -/
def distinctResult (options : Options) (length : Nat) (drawn : List Json) :
    Except SampleError Json :=
  if length ≤ (firstOccurrences options.keys drawn).length then
    .ok (.arr (firstOccurrences options.keys drawn))
  else .error (.exhausted options.limits.maxAttempts (uniqueFragment length))

theorem drawDistinct_eq_iff {result : Except SampleError Json} :
    drawDistinct options draw length length (tolerance options) [] [] cursor = (result, last) ↔
      ∃ drawn failure, Collects draw (Unfinished options length) cursor drawn failure last ∧
        result = outcome (distinctResult options length) drawn failure := by
  -- The arguments of the loop are functions of the items drawn: what is missing, how many
  -- repetitions are spared, the keys seen and the items found.
  refine loop_eq_iff (fun drawn => drawDistinct options draw length
    (length - (firstOccurrences options.keys drawn).length)
    (tolerance options - repetitions options.keys drawn) (foundKeys options.keys drawn).reverse
    (firstOccurrences options.keys drawn).reverse) (fun _ => Unfinished.length_lt) ?_ ?_
  · intro drawn finished
    by_cases full : length ≤ (firstOccurrences options.keys drawn).length
    · rw [Nat.sub_eq_zero_of_le full, drawDistinct, distinctResult, if_pos full,
        List.reverse_reverse]
      rfl
    · have spent : tolerance options ≤ repetitions options.keys drawn :=
        Nat.le_of_not_lt fun tolerated => finished ⟨Nat.lt_of_not_le full, tolerated⟩
      obtain ⟨left, more⟩ := Nat.exists_eq_add_of_lt (Nat.lt_of_not_le full)
      rw [Nat.sub_eq_zero_of_le spent, distinctResult, if_neg full]
      rw [show length - (firstOccurrences options.keys drawn).length = left + 1 by omega,
        drawDistinct]
      rfl
  · rintro drawn ⟨missing, tolerated⟩
    obtain ⟨needed, more⟩ := Nat.exists_eq_add_of_lt missing
    obtain ⟨spare, left⟩ := Nat.exists_eq_add_of_lt tolerated
    rw [show length - (firstOccurrences options.keys drawn).length = needed + 1 by omega,
      show tolerance options - repetitions options.keys drawn = spare + 1 by omega, drawDistinct]
    refine congrArg _ (funext fun item => ?_)
    dsimp only
    split
    next old =>
      have old : (foundKeys options.keys drawn).contains (comparisonKey options.keys item) := by
        simpa [comparisonKey] using old
      obtain ⟨found, repeated⟩ := repeated_of_contains old
      rw [foundKeys, foundKeys, found, repeated]
      congr 1 <;> omega
    next new =>
      have new : ¬ (foundKeys options.keys drawn).contains (comparisonKey options.keys item) := by
        simpa [comparisonKey] using new
      obtain ⟨found, repeated⟩ := found_of_not_contains new
      rw [foundKeys, foundKeys, found, repeated, List.map_append, List.reverse_concat,
        List.map_singleton, List.reverse_concat, List.length_append, List.length_singleton]
      congr 1 <;> omega

/-- The last item completes the array, so it was found and no repetition. -/
theorem complete_of_heldBefore {drawn : List Json}
    (held : HeldBefore (Unfinished options length) drawn)
    (full : length ≤ (firstOccurrences options.keys drawn).length) :
    (firstOccurrences options.keys drawn).length = length ∧
      repetitions options.keys drawn < tolerance options := by
  cases drawn using List.reverseRecOn with
  | nil => exact ⟨Nat.le_antisymm (Nat.zero_le _) full, tolerance_pos⟩
  | append_singleton drawn item =>
    obtain ⟨missing, tolerated⟩ := held.before_last
    rcases repeated_or_found options.keys drawn item with ⟨found, -⟩ | ⟨found, repeated⟩
    · exact absurd (found ▸ full) (Nat.not_le_of_lt missing)
    · rw [found, List.length_append, List.length_singleton] at full ⊢
      exact ⟨Nat.le_antisymm missing full, repeated ▸ tolerated⟩

/-- The last item is one repetition too many. -/
theorem exhausted_of_heldBefore {drawn : List Json}
    (held : HeldBefore (Unfinished options length) drawn)
    (spent : tolerance options ≤ repetitions options.keys drawn) :
    repetitions options.keys drawn = tolerance options := by
  cases drawn using List.reverseRecOn with
  | nil => exact absurd spent (Nat.not_le_of_lt tolerance_pos)
  | append_singleton drawn item =>
    obtain ⟨-, tolerated⟩ := held.before_last
    rcases repeated_or_found options.keys drawn item with ⟨-, repeated⟩ | ⟨-, repeated⟩
    · omega
    · omega

theorem drawDistinct_eq_ok_iff :
    drawDistinct options draw length length (tolerance options) [] [] cursor = (.ok value, last) ↔
      ∃ drawn, Stream draw cursor drawn last ∧
        (firstOccurrences options.keys drawn).length = length ∧
        HeldBefore (fun earlier => (firstOccurrences options.keys earlier).length < length) drawn ∧
        repetitions options.keys drawn < tolerance options ∧
        drawn.length ≤ mostDraws options length ∧
        value = .arr (firstOccurrences options.keys drawn) := by
  rw [drawDistinct_eq_iff]
  constructor
  · rintro ⟨drawn, failure, ⟨stream, held, -⟩ | _, same⟩
    · change _ = distinctResult options length drawn at same
      unfold distinctResult at same
      split at same
      next full =>
        cases same
        obtain ⟨complete, tolerated⟩ := complete_of_heldBefore held full
        exact ⟨drawn, stream, complete,
          fun earlier shorter other => (held earlier shorter other).1, tolerated,
          length_le_of_heldBefore held, rfl⟩
      next => cases same
    · cases same
  · rintro ⟨drawn, stream, full, held, tolerated, -, rfl⟩
    have spared : HeldBefore (fun earlier => repetitions options.keys earlier < tolerance options)
        drawn := heldBefore_of_closed (fun earlier item =>
      Nat.lt_of_le_of_lt (repetitions_le_concat options.keys earlier item)) tolerated
    refine ⟨drawn, none, .complete stream (fun earlier shorter other =>
      ⟨held earlier shorter other, spared earlier shorter other⟩) ?_, (if_pos full.ge).symm⟩
    exact fun more => absurd full more.1.ne

theorem drawDistinct_eq_error_iff :
    drawDistinct options draw length length (tolerance options) [] [] cursor =
        (.error error, last) ↔
      ∃ drawn between, Stream draw cursor drawn between ∧
        (firstOccurrences options.keys drawn).length < length ∧
        (repetitions options.keys drawn < tolerance options ∧
            drawn.length < mostDraws options length ∧ draw between = (.error error, last) ∨
          repetitions options.keys drawn = tolerance options ∧
            HeldBefore (fun earlier => repetitions options.keys earlier < tolerance options) drawn ∧
            drawn.length ≤ mostDraws options length ∧
            error = .exhausted options.limits.maxAttempts (uniqueFragment length) ∧
            last = between) := by
  rw [drawDistinct_eq_iff]
  constructor
  · rintro ⟨drawn, failure, ⟨stream, held, finished⟩ | ⟨stream, held, more, failed⟩, same⟩
    · change _ = distinctResult options length drawn at same
      unfold distinctResult at same
      split at same
      next => cases same
      next missing =>
        cases same
        have missing := Nat.lt_of_not_le missing
        have spent := exhausted_of_heldBefore held
          (Nat.le_of_not_lt fun tolerated => finished ⟨missing, tolerated⟩)
        exact ⟨drawn, last, stream, missing, .inr ⟨spent,
          fun earlier shorter other => (held earlier shorter other).2,
          length_le_of_heldBefore held, rfl, rfl⟩⟩
    · cases same
      exact ⟨drawn, _, stream, more.1, .inl ⟨more.2, more.length_lt, failed⟩⟩
  · rintro ⟨drawn, between, stream, missing, ⟨tolerated, -, failed⟩ | ⟨spent, spared, -, rfl, rfl⟩⟩
    · have more : Unfinished options length drawn := ⟨missing, tolerated⟩
      exact ⟨drawn, some error, .failed stream
        (heldBefore_of_closed (fun _ _ => Unfinished.of_concat) more) more failed, rfl⟩
    · have held : HeldBefore (fun earlier =>
          (firstOccurrences options.keys earlier).length < length) drawn :=
        heldBefore_of_closed (fun earlier item =>
          Nat.lt_of_le_of_lt (length_le_concat options.keys earlier item)) missing
      refine ⟨drawn, none, .complete stream (fun earlier shorter other =>
        ⟨held earlier shorter other, spared earlier shorter other⟩) ?_,
        (if_neg (Nat.not_le_of_lt missing)).symm⟩
      exact fun more => absurd spent more.2.ne

end Distinct

/-! ## Sizes -/

/-- A size is drawn without errors; winding down takes the least one and draws nothing. -/
theorem drawSize_eq_ok (options : Options) {least most : Nat} (ordered : least ≤ most)
    (cursor : Cursor) :
    ∃ length start, drawSize options least most cursor = (.ok length, start) ∧
      (options.limits.windDownDepth ≤ cursor.depth → length = least ∧ start = cursor) ∧
      least ≤ length ∧ length ≤ most := by
  have depth : windingDown options cursor =
      (.ok (decide (options.limits.windDownDepth ≤ cursor.depth)), cursor) := rfl
  rw [drawSize, bind_of_ok depth]
  by_cases deep : options.limits.windDownDepth ≤ cursor.depth
  · rw [if_pos (decide_eq_true deep)]
    exact ⟨least, cursor, rfl, fun _ => ⟨rfl, rfl⟩, Nat.le_refl _, ordered⟩
  · rw [if_neg (by simpa using deep), size, if_neg (Nat.not_lt_of_le ordered)]
    exact ⟨_, _, rfl, fun winding => absurd winding deep, Random.size_mem ordered cursor.source⟩

namespace Generator

variable {options : Options} {bodies : Bodies} {items : Generator} {least most length : Nat}
  {cursor start : Cursor}

/-- A run lists the next items of a draw, or fails with the first of them that does. -/
structure Lists (draw : Draw Json) (length : Nat) (start : Cursor)
    (run : Except SampleError Json × Cursor) : Prop where
  ok_iff : ∀ value last, run = (.ok value, last) ↔
    ∃ drawn, Stream draw start drawn last ∧ drawn.length = length ∧ value = .arr drawn
  error_iff : ∀ error last, run = (.error error, last) ↔
    ∃ drawn between, Stream draw start drawn between ∧ drawn.length < length ∧
      draw between = (.error error, last)

/-- A run lists the first occurrences among the next items of a draw: up to the item that
completes them, unless there are too many repetitions or an item fails before. -/
structure ListsDistinct (options : Options) (draw : Draw Json) (length : Nat) (start : Cursor)
    (run : Except SampleError Json × Cursor) : Prop where
  ok_iff : ∀ value last, run = (.ok value, last) ↔
    ∃ drawn, Stream draw start drawn last ∧
      (firstOccurrences options.keys drawn).length = length ∧
      HeldBefore (fun earlier => (firstOccurrences options.keys earlier).length < length) drawn ∧
      repetitions options.keys drawn < tolerance options ∧
      drawn.length ≤ mostDraws options length ∧
      value = .arr (firstOccurrences options.keys drawn)
  error_iff : ∀ error last, run = (.error error, last) ↔
    ∃ drawn between, Stream draw start drawn between ∧
      (firstOccurrences options.keys drawn).length < length ∧
      (repetitions options.keys drawn < tolerance options ∧
          drawn.length < mostDraws options length ∧ draw between = (.error error, last) ∨
        repetitions options.keys drawn = tolerance options ∧
          HeldBefore (fun earlier => repetitions options.keys earlier < tolerance options) drawn ∧
          drawn.length ≤ mostDraws options length ∧
          error = .exhausted options.limits.maxAttempts (uniqueFragment length) ∧
          last = between)

theorem array_lists (sized : drawSize options least most cursor = (.ok length, start)) :
    Lists (draw options bodies items) length start
      (draw options bodies (.array items least most false) cursor) := by
  have run : draw options bodies (.array items least most false) cursor =
      (many (draw options bodies items) length >>= fun values => Pure.pure (Json.arr values))
        start := by
    rw [draw_eq, drawWith, ← draw_eq]
    exact bind_of_ok sized
  rw [run]
  constructor
  · intro value last
    rw [bind_eq_ok_iff]
    constructor
    · rintro ⟨values, between, ran, ⟨⟩⟩
      obtain ⟨stream, counted⟩ := many_eq_ok_iff.mp ran
      exact ⟨values, stream, counted, rfl⟩
    · rintro ⟨drawn, stream, counted, rfl⟩
      exact ⟨drawn, last, many_eq_ok_iff.mpr ⟨stream, counted⟩, rfl⟩
  · intro error last
    rw [bind_eq_error_iff, many_eq_error_iff]
    refine or_iff_left ?_
    rintro ⟨_, _, -, ⟨⟩⟩

theorem array_listsDistinct (sized : drawSize options least most cursor = (.ok length, start)) :
    ListsDistinct options (draw options bodies items) length start
      (draw options bodies (.array items least most true) cursor) := by
  have run : draw options bodies (.array items least most true) cursor =
      drawDistinct options (draw options bodies items) length length (tolerance options) [] []
        start := by
    rw [draw_eq, drawWith, ← draw_eq]
    exact bind_of_ok sized
  rw [run]
  exact ⟨fun _ _ => drawDistinct_eq_ok_iff, fun _ _ => drawDistinct_eq_error_iff⟩

theorem array_drawn {drawn found : List Json}
    (sized : drawSize options least most cursor = (.ok length, start))
    (stream : ∃ last, Stream (draw options bodies items) start drawn last)
    (listed : firstOccurrences options.keys drawn = found) (full : found.length = length)
    (held : HeldBefore (fun earlier => (firstOccurrences options.keys earlier).length < length)
      drawn)
    (tolerated : repetitions options.keys drawn < tolerance options)
    (bounded : drawn.length ≤ mostDraws options length) :
    (draw options bodies (.array items least most true) cursor).1 = .ok (.arr found) := by
  obtain ⟨last, stream⟩ := stream
  subst listed
  exact congrArg Prod.fst (((array_listsDistinct sized).ok_iff _ last).mpr
    ⟨drawn, stream, full, held, tolerated, bounded, rfl⟩)

/-- The target length is the least one when winding down and between the bounds otherwise. Without
the demand for distinct items the next items are listed; with it their first occurrences are, as
long as fewer repetitions come before than are tolerated. The first item that fails ends the
drawing, and the number of items drawn is bounded. -/
theorem array_draws (ordered : least ≤ most) (options : Options) (bodies : Bodies)
    (items : Generator) (cursor : Cursor) :
    ∃ length start, drawSize options least most cursor = (.ok length, start) ∧
      (options.limits.windDownDepth ≤ cursor.depth → length = least ∧ start = cursor) ∧
      least ≤ length ∧ length ≤ most ∧
      Lists (draw options bodies items) length start
        (draw options bodies (.array items least most false) cursor) ∧
      ListsDistinct options (draw options bodies items) length start
        (draw options bodies (.array items least most true) cursor) := by
  obtain ⟨length, start, sized, winding, above, below⟩ := drawSize_eq_ok options ordered cursor
  exact ⟨length, start, sized, winding, above, below, array_lists sized, array_listsDistinct sized⟩

/-- One, one as a float and two. -/
def ones : Generator := .enumeration "enum" [.int 1, .float .one, .int 2]

/-- A source that draws a size and then each of three values. -/
def onesCursor : Cursor := ⟨.cycle #[0, 0, 0x60000000, 0xC0000000], 0⟩

/-- The float is a repetition, so the two items are those before and after it. -/
theorem ones_drawn_apart :
    2 ≤ 2 ∧ (draw {} [] (.array ones 2 2 true) onesCursor).1 = .ok (.arr [.int 1, .int 2]) := by
  refine ⟨Nat.le_refl 2, ?_⟩
  obtain ⟨length, start, sized, -, above, below, -, distinct⟩ :=
    array_draws (Nat.le_refl 2) {} [] ones onesCursor
  obtain rfl : length = 2 := Nat.le_antisymm below above
  obtain rfl : start = (drawSize {} 2 2 onesCursor).2 := by rw [sized]
  obtain ⟨last, stream⟩ : ∃ last, Stream (draw {} [] ones) (drawSize {} 2 2 onesCursor).2
      [.int 1, .float .one, .int 2] last :=
    ⟨_, stream_cons.mpr ⟨_, rfl, stream_cons.mpr ⟨_, rfl, stream_cons.mpr ⟨_, rfl,
      stream_nil.mpr rfl⟩⟩⟩⟩
  have listed : firstOccurrences ({} : Options).keys [.int 1, .float .one, .int 2] =
      [.int 1, .int 2] := eq_of_beq (by decide +kernel)
  have drawn := (distinct.ok_iff (.arr [.int 1, .int 2]) last).mpr ⟨_, stream,
    congrArg List.length listed, by decide +kernel, by decide +kernel, by decide +kernel,
    congrArg Json.arr listed.symm⟩
  exact congrArg Prod.fst drawn

end Generator

end SchemaSampler
