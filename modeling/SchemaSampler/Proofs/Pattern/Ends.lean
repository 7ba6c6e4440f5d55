import SchemaSampler.Proofs.Pattern.Charsets
import SchemaSampler.Proofs.Pattern.Positions

/-!
# Where matches end

The positions where a match may end are those of single starts taken together, for every pattern.
The constructors that bring a pattern to normal form change no ends.

A set with one character becomes a literal, which is right for sets that keep within the
characters only; `Pattern.Bounded` says so of the sets that an alternation may join.

Results:
1. `Pattern.mem_ends_iff`: the ends from several starts are those from one of them.
2. `Pattern.ends_concat`: the ends of a sequence in normal form.
3. `Pattern.mem_ends_alternation`: the ends of an alternation in normal form.
4. `Pattern.bounded_concat`, `Pattern.bounded_alternation`, `Pattern.bounded_repeated`: the
   constructors keep sets bounded.
-/

namespace SchemaSampler

namespace Pattern

open Positions

variable (subject : Subject)

/-! ## Starts taken together -/

mutual
theorem additive_ends : (pattern : Pattern) → Additive fun starts => ends subject starts pattern
  | empty => additive_id
  | literal chars => by
    intro starts position
    simp only [ends, List.mem_map, List.mem_filter, List.mem_singleton]
    constructor
    · rintro ⟨start, ⟨listed, stands⟩, rfl⟩
      exact ⟨start, listed, start, ⟨rfl, stands⟩, rfl⟩
    · rintro ⟨start, listed, _, ⟨rfl, stands⟩, rfl⟩
      exact ⟨_, ⟨listed, stands⟩, rfl⟩
  | set chars => by
    intro starts position
    simp only [ends, List.mem_map, List.mem_filter, List.mem_singleton]
    constructor
    · rintro ⟨start, ⟨listed, stands⟩, rfl⟩
      exact ⟨start, listed, start, ⟨rfl, stands⟩, rfl⟩
    · rintro ⟨start, listed, _, ⟨rfl, stands⟩, rfl⟩
      exact ⟨_, ⟨listed, stands⟩, rfl⟩
  | look condition => by
    intro starts position
    simp only [ends, List.mem_filter, List.mem_singleton]
    constructor
    · rintro ⟨listed, holds⟩
      exact ⟨position, listed, rfl, holds⟩
    · rintro ⟨_, listed, rfl, holds⟩
      exact ⟨listed, holds⟩
  | repetition least most _ inner => by
    have step := additive_ends inner
    exact (step.iterate least).comp (step.reach _)
  | capture _ inner => additive_ends inner
  | sequence parts => additive_sequenceEnds parts
  | choice branches => additive_choiceEnds branches

theorem additive_sequenceEnds :
    (parts : List Pattern) → Additive fun starts => sequenceEnds subject starts parts
  | [] => additive_id
  | part :: rest => (additive_ends part).comp (additive_sequenceEnds rest)

theorem additive_choiceEnds :
    (branches : List Pattern) → Additive fun starts => choiceEnds subject starts branches
  | [] => by
    intro starts position
    simp [choiceEnds]
  | branch :: rest => (additive_ends branch).union (additive_choiceEnds rest)
end

variable {subject} {starts : Positions}

theorem standsAt_append (first second : List Char) (position : Nat) :
    standsAt subject (first ++ second) position =
      (standsAt subject first position && standsAt subject second (position + first.length)) := by
  induction first generalizing position with
  | nil => rfl
  | cons c rest ih =>
    rw [List.cons_append, standsAt, standsAt, ih, List.length_cons, Nat.add_right_comm,
      Nat.add_assoc position, Bool.and_assoc]

theorem sequenceEnds_append (first second : List Pattern) :
    sequenceEnds subject starts (first ++ second) =
      sequenceEnds subject (sequenceEnds subject starts first) second := by
  induction first generalizing starts with
  | nil => rfl
  | cons part rest ih => exact ih

theorem sequenceEnds_partsOf (pattern : Pattern) :
    sequenceEnds subject starts (partsOf pattern) = ends subject starts pattern := by
  cases pattern <;> rfl

theorem sequenceEnds_prepend (part : Pattern) (parts : List Pattern) :
    sequenceEnds subject starts (prepend part parts) =
      sequenceEnds subject (ends subject starts part) parts := by
  unfold prepend
  split
  · rfl
  next first second rest =>
    -- Two literals behind each other stand where their characters do.
    have joined : ends subject starts (literal (first ++ second)) =
        ends subject (ends subject starts (literal first)) (literal second) := by
      have stands (position : Nat) : standsAt subject (first ++ second) position =
          ((standsAt subject second ∘ fun position => position + first.length) position &&
            standsAt subject first position) := by
        rw [standsAt_append, Bool.and_comm]
        rfl
      have ended (position : Nat) : position + (first ++ second).length =
          ((fun position => position + second.length) ∘
            fun position => position + first.length) position := by
        rw [List.length_append, ← Nat.add_assoc]
        rfl
      rw [ends, ends, ends, List.filter_map, List.map_map, List.filter_filter,
        List.filter_congr fun position _ => stands position]
      exact List.map_congr_left fun position _ => ended position
    rw [sequenceEnds, joined]
    rfl
  · rfl

/-- The ends of a sequence in normal form. -/
theorem ends_concat (parts : List Pattern) :
    ends subject starts (concat parts) = sequenceEnds subject starts parts := by
  have joined (parts : List Pattern) : sequenceEnds subject starts (parts.foldr prepend []) =
      sequenceEnds subject starts parts := by
    induction parts generalizing starts with
    | nil => rfl
    | cons part rest ih =>
      rw [List.foldr_cons, sequenceEnds_prepend, ih]
      rfl
  have flattened : sequenceEnds subject starts (parts.flatMap partsOf) =
      sequenceEnds subject starts parts := by
    clear joined
    induction parts generalizing starts with
    | nil => rfl
    | cons part rest ih =>
      rw [List.flatMap_cons, sequenceEnds_append, sequenceEnds_partsOf, ih]
      rfl
  rw [← flattened, ← joined]
  unfold concat
  split
  next nothing => rw [nothing]; rfl
  next only => rw [only]; rfl
  · rfl

/-! ## Sets -/

/-- The sets outside groups and repetitions keep within the characters. -/
inductive Bounded : Pattern → Prop where
  | empty : Bounded empty
  | literal (chars : List Char) : Bounded (literal chars)
  | set {chars : Charset} (within : chars.Bounded) : Bounded (set chars)
  | look (condition : Look) : Bounded (look condition)
  | repetition (least : Nat) (most : Option Nat) (greedy : Bool) (inner : Pattern) :
    Bounded (repetition least most greedy inner)
  | capture (number : Nat) (inner : Pattern) : Bounded (capture number inner)
  | sequence {parts : List Pattern} (each : ∀ part ∈ parts, Bounded part) : Bounded (sequence parts)
  | choice {branches : List Pattern} (each : ∀ branch ∈ branches, Bounded branch) :
    Bounded (choice branches)

theorem mem_ends_set {chars : Charset} {position : Nat} :
    position ∈ ends subject starts (set chars) ↔
      ∃ start ∈ starts, inSet chars subject[start]? = true ∧ start + 1 = position := by
  simp [ends, and_assoc]

theorem not_mem_ends_empty (position : Nat) : position ∉ ends subject starts (set .empty) := by
  rw [mem_ends_set]
  rintro ⟨start, -, inside, -⟩
  cases found : subject[start]? <;> rw [found] at inside <;> cases inside

theorem ends_set_congr {a b : Charset} (same : ∀ c, a.contains c = true ↔ b.contains c = true) :
    ends subject starts (set a) = ends subject starts (set b) := by
  have alike : ∀ c, a.contains c = b.contains c := fun c => Bool.eq_iff_iff.mpr (same c)
  have inside : ∀ c, inSet a c = inSet b c := by
    rintro (_ | c)
    · rfl
    · exact alike c
  rw [ends, ends, List.filter_congr fun position _ => inside subject[position]?]

theorem ends_literal_single (c : Char) :
    ends subject starts (literal [c]) = ends subject starts (set (.single c)) := by
  have inside (position : Nat) :
      standsAt subject [c] position = inSet (.single c) subject[position]? := by
    rw [standsAt, standsAt, Bool.and_true]
    cases subject[position]? with
    | none => rfl
    | some d =>
      rw [Bool.eq_iff_iff, inSet, Charset.contains_single, beq_iff_eq, Option.some.injEq]
  rw [ends, ends, List.filter_congr fun position _ => inside position]
  rfl

theorem ends_ofSet {chars : Charset} (bounded : chars.Bounded) :
    ends subject starts (ofSet chars) = ends subject starts (set chars) := by
  unfold ofSet
  split
  next c only =>
    rw [ends_literal_single]
    refine ends_set_congr fun d => ?_
    rw [Charset.contains_single, Charset.contains_of_single? bounded only]
  next => rfl

theorem literalSet?_eq_some {pattern : Pattern} {chars : Charset}
    (found : literalSet? pattern = some chars) : ∃ c, pattern = literal [c] ∧ chars = .single c := by
  unfold literalSet? at found
  split at found
  next c => exact ⟨c, rfl, (Option.some.inj found).symm⟩
  next => cases found

theorem set?_eq_some {pattern : Pattern} {chars : Charset} (found : set? pattern = some chars) :
    pattern = set chars := by
  unfold set? at found
  split at found
  next => rw [Option.some.inj found]
  next => cases found

theorem bounded_ofSet {chars : Charset} (bounded : chars.Bounded) : (ofSet chars).Bounded := by
  unfold ofSet
  split
  · exact .literal _
  · exact .set bounded

theorem forall₂_of_mapM {α β : Type} {f : α → Option β} {items : List α} {images : List β}
    (mapped : items.mapM f = some images) :
    List.Forall₂ (fun item image => f item = some image) items images := by
  induction items generalizing images with
  | nil =>
    cases mapped
    exact .nil
  | cons item rest ih =>
    rw [List.mapM_cons] at mapped
    obtain ⟨image, own, mapped⟩ := Option.bind_eq_some_iff.mp mapped
    obtain ⟨others, later, same⟩ := Option.bind_eq_some_iff.mp mapped
    cases same
    exact .cons own (ih later)

/-- The union of the sets of all branches has the ends of the branches. -/
theorem mem_ends_union {setOf? : Pattern → Option Charset} {branches : List Pattern}
    {chars : Charset} (union : unionOf? setOf? branches = some chars)
    (alike : ∀ branch ∈ branches, ∀ set, setOf? branch = some set →
      ends subject starts branch = ends subject starts (.set set)) {position : Nat} :
    position ∈ ends subject starts (set chars) ↔
      ∃ branch ∈ branches, position ∈ ends subject starts branch := by
  obtain ⟨sets, mapped, rfl⟩ := Option.map_eq_some_iff.mp union
  have pairs := forall₂_of_mapM mapped
  -- The union is built from the front, so a set that was collected before comes first.
  have collected (all : Charset) :
      position ∈ ends subject starts (set (sets.foldl Charset.union all)) ↔
        position ∈ ends subject starts (set all) ∨
          ∃ branch ∈ branches, position ∈ ends subject starts branch := by
    clear mapped union
    induction pairs generalizing all with
    | nil => simp
    | @cons branch own rest sets is _ ih =>
      have first : position ∈ ends subject starts (set (all.union own)) ↔
          position ∈ ends subject starts (set all) ∨ position ∈ ends subject starts branch := by
        rw [alike branch List.mem_cons_self own is, mem_ends_set, mem_ends_set, mem_ends_set,
          ← exists_or]
        refine exists_congr fun start => ?_
        cases subject[start]? with
        | none => simp [inSet]
        | some c =>
          simp only [inSet, Charset.contains_union]
          tauto
      rw [List.foldl_cons, ih fun other later => alike other (List.mem_cons_of_mem _ later), first,
        or_assoc, List.exists_mem_cons_iff]
  rw [collected .empty, or_iff_right (not_mem_ends_empty position)]

theorem bounded_union {setOf? : Pattern → Option Charset} {branches : List Pattern}
    {chars : Charset} (union : unionOf? setOf? branches = some chars)
    (bounded : ∀ branch ∈ branches, ∀ set, setOf? branch = some set → set.Bounded) :
    chars.Bounded := by
  obtain ⟨sets, mapped, rfl⟩ := Option.map_eq_some_iff.mp union
  have pairs := forall₂_of_mapM mapped
  have collected (all : Charset) (kept : all.Bounded) :
      (sets.foldl Charset.union all).Bounded := by
    clear mapped union
    induction pairs generalizing all with
    | nil => exact kept
    | @cons branch own rest sets is _ ih =>
      exact ih (fun other later => bounded other (List.mem_cons_of_mem _ later)) _
        (kept.union (bounded branch List.mem_cons_self own is))
  exact collected _ Charset.bounded_empty

/-! ## Alternations -/

mutual
theorem eq_of_beq_true : (a b : Pattern) → beq a b = true → a = b
  | empty, empty, _ => rfl
  | literal _, literal _, same => congrArg literal (eq_of_beq same)
  | set _, set _, same => congrArg set (eq_of_beq same)
  | look _, look _, same => congrArg look (eq_of_beq same)
  | repetition _ _ _ a, repetition _ _ _ b, same => by
    simp only [beq, Bool.and_eq_true, beq_iff_eq] at same
    obtain ⟨⟨⟨rfl, rfl⟩, rfl⟩, inner⟩ := same
    rw [eq_of_beq_true a b inner]
  | capture _ a, capture _ b, same => by
    simp only [beq, Bool.and_eq_true, beq_iff_eq] at same
    obtain ⟨rfl, inner⟩ := same
    rw [eq_of_beq_true a b inner]
  | sequence as, sequence bs, same => congrArg sequence (eq_of_beqAll as bs same)
  | choice as, choice bs, same => congrArg choice (eq_of_beqAll as bs same)

theorem eq_of_beqAll : (as bs : List Pattern) → beqAll as bs = true → as = bs
  | [], [], _ => rfl
  | a :: as, b :: bs, same => by
    obtain ⟨first, rest⟩ := Bool.and_eq_true_iff.mp same
    rw [eq_of_beq_true a b first, eq_of_beqAll as bs rest]
end

theorem commonPrefix_prefix (as bs : List Pattern) :
    commonPrefix as bs <+: as ∧ commonPrefix as bs <+: bs := by
  induction as generalizing bs with
  | nil => exact ⟨List.nil_prefix, List.nil_prefix⟩
  | cons a as ih =>
    cases bs with
    | nil => exact ⟨List.nil_prefix, List.nil_prefix⟩
    | cons b bs =>
      rw [commonPrefix]
      split
      next same =>
        cases eq_of_beq_true a b same
        obtain ⟨left, right⟩ := ih bs
        exact ⟨List.cons_prefix_cons.mpr ⟨rfl, left⟩, List.cons_prefix_cons.mpr ⟨rfl, right⟩⟩
      next => exact ⟨List.nil_prefix, List.nil_prefix⟩

theorem foldl_commonPrefix_prefix (first : List Pattern) (rest : List (List Pattern)) :
    ∀ parts ∈ first :: rest, rest.foldl commonPrefix first <+: parts := by
  induction rest generalizing first with
  | nil => exact fun parts listed => List.mem_singleton.mp listed ▸ List.prefix_refl _
  | cons second rest ih =>
    obtain ⟨left, right⟩ := commonPrefix_prefix first second
    obtain ⟨own, later⟩ := List.forall_mem_cons.mp (ih (commonPrefix first second))
    exact List.forall_mem_cons.mpr ⟨own.trans left, List.forall_mem_cons.mpr ⟨own.trans right, later⟩⟩

/-- The shared parts stand at the beginning of every branch. -/
theorem sharedParts_prefix {branches : List Pattern} (shared : sharedParts branches ≠ [])
    {branch : Pattern} (listed : branch ∈ branches) :
    ∃ rest, branch = sequence (sharedParts branches ++ rest) := by
  unfold sharedParts at shared ⊢
  split at shared
  next first rest mapped =>
    have sequences : branches = (first :: rest).map sequence := by
      have pairs := forall₂_of_mapM mapped
      generalize first :: rest = lists at pairs
      clear shared mapped listed
      induction pairs with
      | nil => rfl
      | @cons branch parts _ _ own _ ih =>
        cases branch <;> cases own
        rw [List.map_cons, ← ih]
    rw [sequences] at listed
    obtain ⟨parts, among, rfl⟩ := List.mem_map.mp listed
    obtain ⟨further, rfl⟩ := foldl_commonPrefix_prefix first rest parts among
    exact ⟨further, rfl⟩
  next => exact absurd rfl shared

theorem bounded_union_literals {branches : List Pattern} {chars : Charset}
    (union : unionOf? literalSet? branches = some chars) : chars.Bounded := by
  refine bounded_union union fun branch _ set found => ?_
  obtain ⟨c, -, rfl⟩ := literalSet?_eq_some found
  exact Charset.bounded_single c

theorem bounded_union_sets {branches : List Pattern} {chars : Charset}
    (union : unionOf? set? branches = some chars) (each : ∀ branch ∈ branches, branch.Bounded) :
    chars.Bounded := by
  refine bounded_union union fun branch listed set found => ?_
  cases set?_eq_some found
  cases each _ listed with
  | set within => exact within

theorem mem_choiceEnds {branches : List Pattern} {position : Nat} :
    position ∈ choiceEnds subject starts branches ↔
      ∃ branch ∈ branches, position ∈ ends subject starts branch := by
  induction branches with
  | nil => simp [choiceEnds]
  | cons branch rest ih => rw [choiceEnds, mem_union, ih, List.exists_mem_cons_iff]

theorem mem_ends_branchesOf {pattern : Pattern} {position : Nat} :
    position ∈ ends subject starts pattern ↔
      ∃ branch ∈ branchesOf pattern, position ∈ ends subject starts branch := by
  cases pattern with
  | choice branches => exact mem_choiceEnds
  | _ => simp [branchesOf]

theorem Bounded.branchesOf {pattern : Pattern} (bounded : pattern.Bounded) :
    ∀ branch ∈ branchesOf pattern, branch.Bounded := by
  cases bounded with
  | choice each => exact each
  | _ => exact List.forall_mem_singleton.mpr (by constructor <;> assumption)

theorem Bounded.partsOf {pattern : Pattern} (bounded : pattern.Bounded) :
    ∀ part ∈ partsOf pattern, part.Bounded := by
  cases bounded with
  | sequence each => exact each
  | _ => exact List.forall_mem_singleton.mpr (by constructor <;> assumption)

theorem bounded_prepend {part : Pattern} {parts : List Pattern} (own : part.Bounded)
    (each : ∀ part ∈ parts, part.Bounded) : ∀ other ∈ prepend part parts, other.Bounded := by
  fun_cases prepend part parts with
  | case1 => exact each
  | case2 => exact List.forall_mem_cons.mpr ⟨.literal _, (List.forall_mem_cons.mp each).2⟩
  | case3 => exact List.forall_mem_cons.mpr ⟨own, each⟩

theorem bounded_concat {parts : List Pattern} (each : ∀ part ∈ parts, part.Bounded) :
    (concat parts).Bounded := by
  have joined (parts : List Pattern) (each : ∀ part ∈ parts, part.Bounded) :
      ∀ part ∈ parts.foldr prepend [], part.Bounded := by
    induction parts with
    | nil => exact nofun
    | cons part rest ih =>
      obtain ⟨own, later⟩ := List.forall_mem_cons.mp each
      exact bounded_prepend own (ih later)
  have flattened : ∀ part ∈ parts.flatMap Pattern.partsOf, part.Bounded := by
    intro part listed
    obtain ⟨whole, among, own⟩ := List.mem_flatMap.mp listed
    exact (each whole among).partsOf part own
  unfold concat
  split
  · exact .empty
  next only => exact joined _ flattened _ (by rw [only]; exact List.mem_cons_self)
  · exact .sequence (joined _ flattened)

theorem mem_ends_flatMap_branchesOf {branches : List Pattern} {position : Nat} :
    (∃ branch ∈ branches.flatMap branchesOf, position ∈ ends subject starts branch) ↔
      ∃ branch ∈ branches, position ∈ ends subject starts branch := by
  simp only [List.mem_flatMap]
  constructor
  · rintro ⟨branch, ⟨whole, listed, inside⟩, reached⟩
    exact ⟨whole, listed, mem_ends_branchesOf.mpr ⟨branch, inside, reached⟩⟩
  · rintro ⟨whole, listed, reached⟩
    obtain ⟨branch, inside, reached⟩ := mem_ends_branchesOf.mp reached
    exact ⟨branch, ⟨whole, listed, inside⟩, reached⟩

/-- Leading parts that all branches share may stand in front of the alternation of the rest. -/
theorem mem_ends_factored {shared branches : List Pattern} {suffixes : Pattern}
    (begins : ∀ branch ∈ branches, ∃ rest, branch = sequence (shared ++ rest)) {position : Nat}
    (suffix : position ∈ ends subject (sequenceEnds subject starts shared) suffixes ↔
      ∃ branch ∈ branches.map (dropParts shared.length),
        position ∈ ends subject (sequenceEnds subject starts shared) branch) :
    position ∈ ends subject starts (concat (shared ++ [suffixes])) ↔
      ∃ branch ∈ branches, position ∈ ends subject starts branch := by
  rw [ends_concat, sequenceEnds_append]
  refine suffix.trans ?_
  simp only [List.mem_map, exists_exists_and_eq_and]
  refine exists_congr fun branch => and_congr_right fun listed => ?_
  obtain ⟨rest, rfl⟩ := begins branch listed
  rw [dropParts, Pattern.partsOf, List.drop_left, ends_concat, ends, sequenceEnds_append]

theorem Bounded.flatMap_branchesOf {branches : List Pattern}
    (bounded : ∀ branch ∈ branches, branch.Bounded) :
    ∀ branch ∈ branches.flatMap Pattern.branchesOf, branch.Bounded := by
  intro branch listed
  obtain ⟨whole, among, own⟩ := List.mem_flatMap.mp listed
  exact (bounded whole among).branchesOf branch own

theorem bounded_dropParts {branches : List Pattern} (bounded : ∀ branch ∈ branches, branch.Bounded)
    (count : Nat) : ∀ suffix ∈ branches.map (dropParts count), suffix.Bounded := by
  intro suffix listed
  obtain ⟨branch, among, rfl⟩ := List.mem_map.mp listed
  exact bounded_concat fun part inside =>
    (bounded branch among).partsOf part (List.mem_of_mem_drop inside)

theorem mem_ends_alternationWithin {fuel : Nat} {starts : Positions} {branches : List Pattern}
    (bounded : ∀ branch ∈ branches, branch.Bounded) {position : Nat} :
    position ∈ ends subject starts (alternationWithin fuel branches) ↔
      ∃ branch ∈ branches, position ∈ ends subject starts branch := by
  rw [← mem_ends_flatMap_branchesOf, alternationWithin]
  have each := Bounded.flatMap_branchesOf bounded
  generalize branches.flatMap branchesOf = branches at each
  split
  · exact iff_of_false (not_mem_ends_empty position) (by simp)
  · simp
  · split
    next chars _ union =>
      rw [ends_ofSet (bounded_union_literals union)]
      refine mem_ends_union union fun branch _ set found => ?_
      obtain ⟨c, rfl, rfl⟩ := literalSet?_eq_some found
      exact ends_literal_single c
    next chars _ union =>
      rw [ends_ofSet (bounded_union_sets union each)]
      exact mem_ends_union union fun branch _ set found => by rw [set?_eq_some found]
    next =>
      split
      next fuel part shared begins =>
        have prefixed : ∀ branch ∈ branches, ∃ rest, branch = sequence (part :: shared ++ rest) := by
          intro branch listed
          rw [← begins]
          exact sharedParts_prefix (by rw [begins]; exact List.cons_ne_nil _ _) listed
        exact mem_ends_factored prefixed
          (mem_ends_alternationWithin (bounded_dropParts each (part :: shared).length))
      next => exact mem_choiceEnds
termination_by fuel

/-- The ends of an alternation in normal form. -/
theorem mem_ends_alternation {branches : List Pattern}
    (bounded : ∀ branch ∈ branches, branch.Bounded) {position : Nat} :
    position ∈ ends subject starts (alternation branches) ↔
      ∃ branch ∈ branches, position ∈ ends subject starts branch :=
  mem_ends_alternationWithin bounded

theorem bounded_alternationWithin {fuel : Nat} {branches : List Pattern}
    (bounded : ∀ branch ∈ branches, branch.Bounded) :
    (alternationWithin fuel branches).Bounded := by
  rw [alternationWithin]
  have each := Bounded.flatMap_branchesOf bounded
  generalize branches.flatMap branchesOf = branches at each
  split
  · exact .set Charset.bounded_empty
  · exact each _ List.mem_cons_self
  next several _ =>
    split
    next union => exact bounded_ofSet (bounded_union_literals union)
    next union => exact bounded_ofSet (bounded_union_sets union each)
    next =>
      split
      next fuel part shared begins =>
        refine bounded_concat fun other listed => ?_
        rcases List.mem_append.mp listed with front | last
        · -- The shared parts are parts of the first branch.
          cases branches with
          | nil => exact absurd rfl several
          | cons branch rest =>
            have first := List.mem_cons_self (a := branch) (l := rest)
            obtain ⟨rest, same⟩ :=
              sharedParts_prefix (by rw [begins]; exact List.cons_ne_nil _ _) first
            have own := each _ first
            rw [same, begins] at own
            exact own.partsOf other (List.mem_append_left _ front)
        · rw [List.mem_singleton.mp last]
          exact bounded_alternationWithin (bounded_dropParts each _)
      next => exact .choice each
termination_by fuel

theorem bounded_alternation {branches : List Pattern}
    (bounded : ∀ branch ∈ branches, branch.Bounded) : (alternation branches).Bounded :=
  bounded_alternationWithin bounded

theorem bounded_repeated {inner : Pattern} (bounded : inner.Bounded) (least : Nat)
    (most : Option Nat) (greedy : Bool) : (repeated least most greedy inner).Bounded := by
  have forms (least : Nat) (most : Option Nat) :
      (if most == some 0 then empty else if least == 1 && most == some 1 then inner
        else repetition least most greedy inner).Bounded := by
    split
    · exact .empty
    · split
      · exact bounded
      · exact .repetition _ _ _ _
  exact forms _ _

end Pattern

end SchemaSampler
