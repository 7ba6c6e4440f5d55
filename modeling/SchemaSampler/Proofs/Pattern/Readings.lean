import SchemaSampler.Proofs.Pattern.Tokens
import SchemaSampler.Proofs.Pattern.ReadSets

/-!
# Readings that are alike

Two texts of patterns that differ in anchors only are read step by step in the same way: the open
groups are the same, and so are the branches and parts outside of groups, except for conditions on
the start and the end of the text. A text that the pattern without the conditions matches in full is
matched in full by the pattern with them.

Results:
1. `Pattern.Covers`, `Pattern.covers_branch`: conditions around a branch lose no full match.
2. `Pattern.OpenGroup.Alike.pattern`: the pattern of a group covers that of a group like it.
3. `Pattern.Reading.Alike.step`: a step keeps readings alike.
-/

namespace SchemaSampler

namespace Pattern

/-! ## Full matches -/

/-- Every full match of the body is a full match of the pattern. -/
def Covers (pattern body : Pattern) : Prop :=
  ∀ subject : Subject, subject.size ∈ ends subject [0] body → subject.size ∈ ends subject [0] pattern

theorem Covers.refl (pattern : Pattern) : Covers pattern pattern := fun _ full => full

/-- The pattern of a part; a setting matches the empty text. -/
def Part.pattern : Part → Pattern
  | .item pattern => pattern
  | .setting => .empty

def Part.Bounded (part : Part) : Prop := part.pattern.Bounded

theorem branch_eq (group : OpenGroup) :
    Reading.branch group = concat (group.parts.reverse.map Part.pattern) := rfl

/-- A condition that holds at the start of a text, as an anchor states it. -/
def StartAnchor (part : Part) : Prop :=
  part = .item (look .textStart) ∨ part = .item (look .lineStart)

/-- A condition that holds at the end of a text, as an anchor states it. -/
def EndAnchor (part : Part) : Prop :=
  part = .item (look .textEnd) ∨ part = .item (look .lineEnd)

theorem StartAnchor.bounded {part : Part} (anchor : StartAnchor part) : part.Bounded := by
  rcases anchor with rfl | rfl <;> exact .look _

theorem EndAnchor.bounded {part : Part} (anchor : EndAnchor part) : part.Bounded := by
  rcases anchor with rfl | rfl <;> exact .look _

theorem ends_startAnchor {part : Part} (anchor : StartAnchor part) (subject : Subject) :
    ends subject [0] part.pattern = [0] := by
  rcases anchor with rfl | rfl <;> rfl

theorem mem_ends_endAnchor {part : Part} (anchor : EndAnchor part) {subject : Subject}
    {starts : Positions} (reached : subject.size ∈ starts) :
    subject.size ∈ ends subject starts part.pattern := by
  rcases anchor with rfl | rfl <;> exact List.mem_filter.mpr ⟨reached, by simp [Look.holds]⟩

theorem sequenceEnds_startAnchors {front : List Part} (anchors : ∀ part ∈ front, StartAnchor part)
    (subject : Subject) (rest : List Pattern) :
    sequenceEnds subject [0] (front.map Part.pattern ++ rest) = sequenceEnds subject [0] rest := by
  induction front with
  | nil => rfl
  | cons part later ih =>
    obtain ⟨own, others⟩ := List.forall_mem_cons.mp anchors
    rw [List.map_cons, List.cons_append, sequenceEnds, ends_startAnchor own, ih others]

theorem mem_sequenceEnds_endAnchors {back : List Part} (anchors : ∀ part ∈ back, EndAnchor part)
    {subject : Subject} {starts : Positions} (reached : subject.size ∈ starts) :
    subject.size ∈ sequenceEnds subject starts (back.map Part.pattern) := by
  induction back generalizing starts with
  | nil => exact reached
  | cons part later ih =>
    obtain ⟨own, others⟩ := List.forall_mem_cons.mp anchors
    exact ih others (mem_ends_endAnchor own reached)

/-- Anchors around the parts of a branch change no full match. -/
theorem covers_branch {group body : OpenGroup} {front back : List Part}
    (parts : group.parts = back ++ body.parts ++ front)
    (starts : ∀ part ∈ front, StartAnchor part) (finishes : ∀ part ∈ back, EndAnchor part) :
    Covers (Reading.branch group) (Reading.branch body) := by
  intro subject full
  rw [branch_eq, ends_concat] at full ⊢
  rw [parts, List.reverse_append, List.reverse_append, List.map_append, List.map_append,
    sequenceEnds_startAnchors fun part listed => starts part (List.mem_reverse.mp listed),
    sequenceEnds_append]
  exact mem_sequenceEnds_endAnchors (fun part listed => finishes part (List.mem_reverse.mp listed))
    full

/-! ## Open groups -/

namespace OpenGroup

/-- What the group holds keeps within the characters. -/
structure Bounded (group : OpenGroup) : Prop where
  branches : ∀ branch ∈ group.branches, branch.Bounded
  parts : ∀ part ∈ group.parts, part.Bounded

theorem Bounded.branch {group : OpenGroup} (bounded : group.Bounded) :
    (Reading.branch group).Bounded := by
  refine bounded_concat fun pattern listed => ?_
  obtain ⟨part, held, rfl⟩ := List.mem_map.mp listed
  exact bounded.parts part (List.mem_reverse.mp held)

theorem Bounded.allBranches {group : OpenGroup} (bounded : group.Bounded) :
    ∀ branch ∈ (Reading.branch group :: group.branches).reverse, branch.Bounded := by
  intro branch listed
  exact List.forall_mem_cons.mpr ⟨bounded.branch, bounded.branches⟩ branch
    (List.mem_reverse.mp listed)

theorem Bounded.pattern {group : OpenGroup} (bounded : group.Bounded) :
    (Reading.pattern group).Bounded := by
  unfold Reading.pattern
  split
  · exact bounded.branch
  · exact bounded_alternation bounded.allBranches

theorem Bounded.push {group : OpenGroup} (bounded : group.Bounded) {part : Part}
    (own : part.Bounded) : Bounded { group with parts := part :: group.parts } :=
  ⟨bounded.branches, List.forall_mem_cons.mpr ⟨own, bounded.parts⟩⟩

/-- The next branch of the group begins. -/
def next (group : OpenGroup) : OpenGroup :=
  { group with branches := Reading.branch group :: group.branches, parts := [] }

theorem Bounded.next {group : OpenGroup} (bounded : group.Bounded) : group.next.Bounded :=
  ⟨List.forall_mem_cons.mpr ⟨bounded.branch, bounded.branches⟩, nofun⟩

/-- The first group is the second up to conditions around its branches: those at the start may be
there already, the given ones stand behind the last part. -/
structure Alike (back : List Part) (group body : OpenGroup) : Prop where
  bounded : group.Bounded
  bodyBounded : body.Bounded
  split : group.branches.isEmpty = body.branches.isEmpty
  branches : ∀ branch ∈ body.branches, ∃ cover ∈ group.branches, Covers cover branch
  parts : ∃ front, (∀ part ∈ front, StartAnchor part) ∧ group.parts = back ++ body.parts ++ front

theorem Alike.refl {group : OpenGroup} (bounded : group.Bounded) : Alike [] group group where
  bounded := bounded
  bodyBounded := bounded
  split := rfl
  branches branch listed := ⟨branch, listed, .refl branch⟩
  parts := ⟨[], nofun, by simp⟩

theorem Alike.branch {back : List Part} {group body : OpenGroup} (alike : Alike back group body)
    (finishes : ∀ part ∈ back, EndAnchor part) :
    Covers (Reading.branch group) (Reading.branch body) := by
  obtain ⟨front, starts, parts⟩ := alike.parts
  exact covers_branch parts starts finishes

theorem Alike.allBranches {back : List Part} {group body : OpenGroup}
    (alike : Alike back group body) (finishes : ∀ part ∈ back, EndAnchor part) :
    ∀ branch ∈ Reading.branch body :: body.branches,
      ∃ cover ∈ Reading.branch group :: group.branches, Covers cover branch := by
  intro branch listed
  rcases List.mem_cons.mp listed with rfl | earlier
  · exact ⟨_, List.mem_cons_self, alike.branch finishes⟩
  · obtain ⟨cover, held, covers⟩ := alike.branches branch earlier
    exact ⟨cover, List.mem_cons_of_mem _ held, covers⟩

theorem Alike.next {back : List Part} {group body : OpenGroup} (alike : Alike back group body)
    (finishes : ∀ part ∈ back, EndAnchor part) : Alike [] group.next body.next where
  bounded := alike.bounded.next
  bodyBounded := alike.bodyBounded.next
  split := rfl
  branches := alike.allBranches finishes
  parts := ⟨[], nofun, rfl⟩

theorem Alike.push {group body : OpenGroup} (alike : Alike [] group body) {part : Part}
    (own : part.Bounded) :
    Alike [] { group with parts := part :: group.parts } { body with parts := part :: body.parts } where
  bounded := alike.bounded.push own
  bodyBounded := alike.bodyBounded.push own
  split := alike.split
  branches := alike.branches
  parts := by
    obtain ⟨front, starts, parts⟩ := alike.parts
    exact ⟨front, starts, by rw [parts]; rfl⟩

/-- The pattern of a group covers that of a group like it. -/
theorem Alike.pattern {back : List Part} {group body : OpenGroup} (alike : Alike back group body)
    (finishes : ∀ part ∈ back, EndAnchor part) :
    Covers (Reading.pattern group) (Reading.pattern body) := by
  unfold Reading.pattern
  rw [alike.split]
  split
  · exact alike.branch finishes
  · intro subject full
    obtain ⟨branch, listed, reached⟩ :=
      (mem_ends_alternation alike.bodyBounded.allBranches).mp full
    obtain ⟨cover, held, covers⟩ := alike.allBranches finishes branch (List.mem_reverse.mp listed)
    exact (mem_ends_alternation alike.bounded.allBranches).mpr
      ⟨cover, List.mem_reverse.mpr held, covers subject reached⟩

end OpenGroup

/-! ## Readings that are alike -/

/-- Open groups from the inside out: the same, but for the outermost one. -/
inductive GroupsAlike : List OpenGroup → List OpenGroup → Prop
  | outermost {group body : OpenGroup} (alike : group.Alike [] body) : GroupsAlike [group] [body]
  | within {group : OpenGroup} {outer bodyOuter : List OpenGroup} (bounded : group.Bounded)
    (around : GroupsAlike outer bodyOuter) : GroupsAlike (group :: outer) (group :: bodyOuter)

/-- A change of the innermost group keeps the groups alike. -/
theorem GroupsAlike.change {group body : OpenGroup} {outer bodyOuter : List OpenGroup}
    (alike : GroupsAlike (group :: outer) (body :: bodyOuter)) (change : OpenGroup → OpenGroup)
    (keeps : group.Bounded → (change group).Bounded)
    (carries : group.Alike [] body → (change group).Alike [] (change body)) :
    GroupsAlike (change group :: outer) (change body :: bodyOuter) := by
  cases alike with
  | outermost own => exact .outermost (carries own)
  | within bounded around => exact .within (keeps bounded) around

/-- The last part of a branch is the same, and the groups without it are alike. -/
theorem GroupsAlike.withoutLast {group body : OpenGroup} {outer bodyOuter : List OpenGroup}
    (alike : GroupsAlike (group :: outer) (body :: bodyOuter)) {part : Part} {parts : List Part}
    (last : body.parts = part :: parts) :
    part.Bounded ∧ ∃ more, group.parts = part :: more ∧
      GroupsAlike ({ group with parts := more } :: outer) ({ body with parts } :: bodyOuter) := by
  have fewer {group : OpenGroup} {more : List Part} (bounded : group.Bounded)
      (last : group.parts = part :: more) :
      part.Bounded ∧ OpenGroup.Bounded { group with parts := more } := by
    have each := bounded.parts
    rw [last] at each
    obtain ⟨own, others⟩ := List.forall_mem_cons.mp each
    exact ⟨own, bounded.branches, others⟩
  cases alike with
  | outermost own =>
    obtain ⟨front, starts, same⟩ := own.parts
    rw [last] at same
    exact ⟨(fewer own.bodyBounded last).1, parts ++ front, same, .outermost
      ⟨(fewer own.bounded same).2, (fewer own.bodyBounded last).2, own.split, own.branches,
        ⟨front, starts, rfl⟩⟩⟩
  | within bounded around =>
    exact ⟨(fewer bounded last).1, parts, last, .within (fewer bounded last).2 around⟩

/-- Outside of groups the only open groups are alike. -/
theorem GroupsAlike.of_singleton {group body : OpenGroup} {bodyOuter : List OpenGroup}
    (alike : GroupsAlike [group] (body :: bodyOuter)) : bodyOuter = [] ∧ group.Alike [] body := by
  cases alike with
  | outermost own => exact ⟨rfl, own⟩
  | within _ around => cases around

namespace Reading

/-- The readings differ in conditions at the start of branches outside of groups only. -/
structure Alike (reading body : Reading) : Prop where
  flags : reading.flags = body.flags
  captures : reading.captures = body.captures
  names : reading.names = body.names
  groups : GroupsAlike (reading.group :: reading.outer) (body.group :: body.outer)

variable {reading body : Reading}

theorem Alike.push (alike : reading.Alike body) {part : Part} (own : part.Bounded) :
    (reading.push part).Alike (body.push part) where
  flags := alike.flags
  captures := alike.captures
  names := alike.names
  groups := alike.groups.change (fun group => { group with parts := part :: group.parts })
    (·.push own) (·.push own)

theorem Alike.add (alike : reading.Alike body) {pattern : Pattern} (own : pattern.Bounded) :
    (reading.add pattern).Alike (body.add pattern) :=
  alike.push own

theorem Alike.setFlags (alike : reading.Alike body) (flags : Flags) :
    Alike { reading with flags } { body with flags } :=
  ⟨rfl, alike.captures, alike.names, alike.groups⟩

theorem Alike.nextBranch (alike : reading.Alike body) :
    reading.nextBranch.Alike body.nextBranch where
  flags := alike.flags
  captures := alike.captures
  names := alike.names
  groups := alike.groups.change OpenGroup.next (·.next) (·.next nofun)

theorem Alike.openGroup (alike : reading.Alike body) (number : Option Nat) (flags : Flags) :
    (reading.openGroup number flags).Alike (body.openGroup number flags) where
  flags := rfl
  captures := alike.captures
  names := alike.names
  groups := by
    have opened : OpenGroup.Bounded { number, around := body.flags } := ⟨nofun, nofun⟩
    have groups := GroupsAlike.within opened alike.groups
    simpa only [Reading.openGroup, alike.flags] using groups

theorem Alike.openCapture (alike : reading.Alike body) :
    reading.openCapture.Alike body.openCapture := by
  have opened := alike.openGroup (some (body.captures + 1)) body.flags
  unfold Reading.openCapture
  rw [alike.captures, alike.flags]
  exact ⟨opened.flags, rfl, opened.names, opened.groups⟩

theorem Alike.closeGroup? (alike : reading.Alike body) {next bodyNext : Reading}
    (closed : reading.closeGroup? = some next) (bodyClosed : body.closeGroup? = some bodyNext) :
    next.Alike bodyNext := by
  obtain ⟨flags, group, outer, captures, names⟩ := reading
  obtain ⟨bodyFlags, bodyGroup, bodyOuter, bodyCaptures, bodyNames⟩ := body
  obtain ⟨rfl, rfl, rfl, groups⟩ := alike
  dsimp only at groups
  cases groups with
  | outermost => cases closed
  | @within _ outer bodyOuter bounded around =>
    obtain _ | ⟨above, outer⟩ := outer
    · cases closed
    obtain _ | ⟨bodyAbove, bodyOuter⟩ := bodyOuter
    · cases bodyClosed
    cases closed
    cases bodyClosed
    have inner := bounded.pattern
    have left : Alike ⟨group.around, above, outer, captures, names⟩
        ⟨group.around, bodyAbove, bodyOuter, captures, names⟩ := ⟨rfl, rfl, rfl, around⟩
    refine left.add ?_
    split
    · exact .capture _ _
    · exact inner

theorem Alike.repeatLast? (alike : reading.Alike body) {next bodyNext : Reading} {least : Nat}
    {most : Option Nat} {lazy : Bool} (repeated : reading.repeatLast? least most lazy = some next)
    (bodyRepeated : body.repeatLast? least most lazy = some bodyNext) : next.Alike bodyNext := by
  unfold Reading.repeatLast? at repeated bodyRepeated
  split at bodyRepeated
  case h_2 => cases bodyRepeated
  next pattern parts last =>
    cases bodyRepeated
    obtain ⟨own, more, same, groups⟩ := alike.groups.withoutLast last
    rw [same] at repeated
    cases repeated
    have shorter : Alike { reading with group := { reading.group with parts := more } }
        { body with group := { body.group with parts } } :=
      ⟨alike.flags, alike.captures, alike.names, groups⟩
    rw [congrArg Flags.swapGreed alike.flags]
    have own : pattern.Bounded := own
    exact shorter.add (bounded_repeated own _ _ _)

/-- Outside of groups, the readings differ in conditions around branches only; the given ones stand
behind the last part. -/
structure AlikeOutside (back : List Part) (reading body : Reading) : Prop where
  flags : reading.flags = body.flags
  captures : reading.captures = body.captures
  names : reading.names = body.names
  outside : reading.outer = []
  bodyOutside : body.outer = []
  group : reading.group.Alike back body.group

theorem AlikeOutside.alike (alike : AlikeOutside [] reading body) : reading.Alike body where
  flags := alike.flags
  captures := alike.captures
  names := alike.names
  groups := by
    rw [alike.outside, alike.bodyOutside]
    exact .outermost alike.group

theorem Alike.outside (alike : reading.Alike body) (outside : reading.outer = []) :
    AlikeOutside [] reading body := by
  have groups := alike.groups
  rw [outside] at groups
  obtain ⟨bodyOutside, group⟩ := groups.of_singleton
  exact ⟨alike.flags, alike.captures, alike.names, outside, bodyOutside, group⟩

theorem AlikeOutside.nextBranch {back : List Part} (alike : AlikeOutside back reading body)
    (finishes : ∀ part ∈ back, EndAnchor part) :
    AlikeOutside [] reading.nextBranch body.nextBranch :=
  ⟨alike.flags, alike.captures, alike.names, alike.outside, alike.bodyOutside,
    alike.group.next finishes⟩

/-- A condition at the start of a branch keeps the readings alike. -/
theorem AlikeOutside.startAnchor (alike : AlikeOutside [] reading body)
    (fresh : reading.group.parts = []) (bodyFresh : body.group.parts = []) {part : Part}
    (anchor : StartAnchor part) : AlikeOutside [] (reading.push part) body where
  flags := alike.flags
  captures := alike.captures
  names := alike.names
  outside := alike.outside
  bodyOutside := alike.bodyOutside
  group := {
    bounded := alike.group.bounded.push anchor.bounded
    bodyBounded := alike.group.bodyBounded
    split := alike.group.split
    branches := alike.group.branches
    parts := by
      refine ⟨[part], List.forall_mem_singleton.mpr anchor, ?_⟩
      rw [bodyFresh]
      exact congrArg (part :: ·) fresh }

/-- A condition at the end of a branch. -/
theorem AlikeOutside.endAnchor (alike : AlikeOutside [] reading body) {part : Part}
    (anchor : EndAnchor part) : AlikeOutside [part] (reading.push part) body where
  flags := alike.flags
  captures := alike.captures
  names := alike.names
  outside := alike.outside
  bodyOutside := alike.bodyOutside
  group := {
    bounded := alike.group.bounded.push anchor.bounded
    bodyBounded := alike.group.bodyBounded
    split := alike.group.split
    branches := alike.group.branches
    parts := by
      obtain ⟨front, starts, parts⟩ := alike.group.parts
      exact ⟨front, starts, congrArg (part :: ·) parts⟩ }

/-! ## Steps -/

/-- Steps that both succeed leave the same text and readings that are alike. -/
def AlikeAfter (first second : Option (Reading × List Char)) : Prop :=
  ∀ next rest bodyNext bodyRest, first = some (next, rest) → second = some (bodyNext, bodyRest) →
    rest = bodyRest ∧ next.Alike bodyNext

theorem alikeAfter_some {next bodyNext : Reading} (alike : next.Alike bodyNext) (rest : List Char) :
    AlikeAfter (some (next, rest)) (some (bodyNext, rest)) := by
  rintro _ _ _ _ ⟨⟩ ⟨⟩
  exact ⟨rfl, alike⟩

theorem alikeAfter_none (second : Option (Reading × List Char)) : AlikeAfter none second := by
  rintro _ _ _ _ ⟨⟩

/-- What both readings read first is the same. -/
theorem alikeAfter_bind {α : Type} {read : Option α} {first second : α → Option (Reading × List Char)}
    (after : ∀ item, read = some item → AlikeAfter (first item) (second item)) :
    AlikeAfter (read.bind first) (read.bind second) := by
  cases read with
  | none => exact alikeAfter_none _
  | some item => exact after item rfl

/-- Nothing more is read. -/
theorem alikeAfter_map {first second : Option Reading} (rest : List Char)
    (alike : ∀ next bodyNext, first = some next → second = some bodyNext → next.Alike bodyNext) :
    AlikeAfter (first.map fun next => (next, rest)) (second.map fun next => (next, rest)) := by
  intro _ _ _ _ own bodyOwn
  obtain ⟨_, found, same⟩ := Option.map_eq_some_iff.mp own
  obtain ⟨_, bodyFound, bodySame⟩ := Option.map_eq_some_iff.mp bodyOwn
  cases same
  cases bodySame
  exact ⟨rfl, alike _ _ found bodyFound⟩

theorem Alike.readNamedGroup? (alike : reading.Alike body) (input : List Char) :
    AlikeAfter (readNamedGroup? reading input) (readNamedGroup? body input) := by
  unfold Pattern.readNamedGroup?
  dsimp only
  rw [alike.names]
  split
  · split
    · have opened := alike.openCapture
      refine alikeAfter_some ?_ _
      exact ⟨opened.flags, opened.captures, rfl, opened.groups⟩
    · exact alikeAfter_none _
  · exact alikeAfter_none _

theorem Alike.readGroup? (alike : reading.Alike body) (input : List Char) :
    AlikeAfter (readGroup? reading input) (readGroup? body input) := by
  fun_cases Pattern.readGroup? reading input with
  | case1 rest => exact alike.readNamedGroup? rest
  | case2 rest => exact alike.readNamedGroup? rest
  | case3 rest notNamed notPlain =>
    rw [Pattern.readGroup?, alike.flags]
    refine alikeAfter_bind fun item _ => ?_
    obtain ⟨flags, after⟩ := item
    dsimp only
    split
    · exact alikeAfter_some (alike.openGroup none flags) _
    · split
      · exact alikeAfter_none _
      · exact alikeAfter_some ((alike.push (show Part.setting.Bounded from .empty)).setFlags flags) _
    · exact alikeAfter_none _
    · exact notNamed
    · exact notPlain
  | case4 _ notNamed notPlain notFlags =>
    rw [Pattern.readGroup?]
    · exact alikeAfter_some alike.openCapture input
    · exact notNamed
    · exact notPlain
    · exact notFlags

theorem Alike.readRepetition? (alike : reading.Alike body) (least : Nat) (most : Option Nat)
    (input : List Char) :
    AlikeAfter (readRepetition? reading least most input) (readRepetition? body least most input) := by
  have repeated (lazy : Bool) (rest : List Char) :
      AlikeAfter ((reading.repeatLast? least most lazy).map fun reading => (reading, rest))
        ((body.repeatLast? least most lazy).map fun reading => (reading, rest)) :=
    alikeAfter_map rest fun _ _ => alike.repeatLast?
  fun_cases Pattern.readRepetition? reading least most input with
  | case1 rest => exact repeated true rest
  | case2 _ notLazy =>
    rw [Pattern.readRepetition?]
    · exact repeated false input
    · exact notLazy

/-- A step keeps readings alike. -/
theorem Alike.step (alike : reading.Alike body) (c : Char) (input : List Char) :
    AlikeAfter (step? reading c input) (step? body c input) := by
  have added {pattern : Pattern} (own : pattern.Bounded) (rest : List Char) :
      AlikeAfter (some (reading.add pattern, rest)) (some (body.add pattern, rest)) :=
    alikeAfter_some (alike.add own) rest
  unfold step?
  rw [alike.flags]
  split
  · exact alike.readGroup? input
  · exact alikeAfter_map input fun _ _ => alike.closeGroup?
  · exact alikeAfter_some alike.nextBranch input
  · dsimp only
    rw [Option.map_eq_bind, Option.map_eq_bind]
    refine alikeAfter_bind fun item read => ?_
    obtain ⟨chars, rest⟩ := item
    exact added (bounded_ofSet (bounded_readClass? (bounded_openClass input) (List.forall_mem_nil _) read)) rest
  · exact alike.readRepetition? 0 none input
  · exact alike.readRepetition? 1 none input
  · exact alike.readRepetition? 0 (some 1) input
  · refine alikeAfter_bind fun item _ => ?_
    obtain ⟨least, most, rest⟩ := item
    exact alike.readRepetition? least most rest
  · exact added (bounded_ofSet (bounded_anyChar body.flags)) input
  · exact added (.look _) input
  · exact added (.look _) input
  · refine alikeAfter_bind fun item read => ?_
    obtain ⟨escape, rest⟩ := item
    cases escape with
    | char c => exact added (bounded_setPattern _ (Charset.bounded_single c)) rest
    | set chars => exact added (bounded_ofSet (bounded_readEscape? read)) rest
    | look condition => exact added (.look condition) rest
  · split
    · exact alikeAfter_some alike input
    · split
      · exact alikeAfter_some alike _
      · exact added (bounded_setPattern _ (Charset.bounded_single c)) input

end Reading

end Pattern

end SchemaSampler
