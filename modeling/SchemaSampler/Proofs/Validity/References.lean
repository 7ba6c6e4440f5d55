import SchemaSampler.Proofs.Compile.Order
import SchemaSampler.Proofs.Json.Sizes
import SchemaSampler.Proofs.Validity.Fragment

/-!
# References of a document

The links of the fragment lead to the root or to a definition, for a binder and for a validator
alike. Where no cycle of links applies to one and the same instance, links have ranks that fall
from each to the next. A validator then follows at most as many links as there are before it turns
to a part of the instance, so its budget is enough for every instance.

Results:
1. `resolve_slot`, `resolve_definition`: where a link leads.
2. `Guarded.exists_ranking`: the ranks of a document without such cycles.
3. `Passes`: an instance passes a schema with every budget that the ranks ask for.
4. `isValid_of_passes`: the budget of a validator is one of them.
-/

namespace SchemaSampler

theorem Validator.ofSchema?_eq_some {schema : Json} {validator : Validator}
    (made : Validator.ofSchema? schema = some validator) : validator = ⟨schema⟩ := by
  unfold ofSchema? at made
  split at made
  · exact (Option.some.inj made).symm
  · cases made

/-! ## Pointers to definitions -/

namespace Pointer

theorem segments_ne_nil (chars : List Char) : segments chars ≠ [] := by
  cases chars with
  | nil => exact List.cons_ne_nil _ _
  | cons c rest =>
    rw [segments]
    split
    · split <;> exact List.cons_ne_nil _ _
    · exact List.cons_ne_nil _ _

theorem segments_of_plain {segment : List Char} (plain : ∀ c ∈ segment, c ≠ '/') :
    segments segment = [segment] := by
  induction segment with
  | nil => rfl
  | cons c rest ih =>
    have other : ¬ (c == '/') = true := by simpa using plain c List.mem_cons_self
    rw [segments, ih fun d later => plain d (List.mem_cons_of_mem _ later)]
    dsimp only
    rw [if_neg other]

theorem segments_append {segment : List Char} (plain : ∀ c ∈ segment, c ≠ '/')
    (rest : List Char) : segments (segment ++ '/' :: rest) = segment :: segments rest := by
  induction segment with
  | nil =>
    rw [List.nil_append, segments]
    cases found : segments rest with
    | nil => exact absurd found (segments_ne_nil rest)
    | cons first others => rfl
  | cons c segment ih =>
    have other : ¬ (c == '/') = true := by simpa using plain c List.mem_cons_self
    rw [List.cons_append, segments, ih fun d later => plain d (List.mem_cons_of_mem _ later)]
    dsimp only
    rw [if_neg other]

theorem unescape_of_plain {escape c : Char} {text : List Char} (plain : ∀ d ∈ text, d ≠ '~') :
    unescape escape c text = text := by
  fun_induction unescape escape c text with
  | case1 | case2 => exact absurd rfl (plain '~' List.mem_cons_self)
  | case3 d rest _ ih => rw [ih fun e later => plain e (List.mem_cons_of_mem _ later)]
  | case4 => rfl

theorem segmentName_of_plain {name : String} (plain : ∀ c ∈ name.toList, c ≠ '~') :
    segmentName name.toList = name := by
  unfold segmentName
  rw [unescape_of_plain plain, unescape_of_plain plain, String.ofList_toList]

end Pointer

namespace Schema

/-- No character of a simple name has a meaning in pointers. -/
theorem SimpleName.ne {name : String} (simple : SimpleName name) {c : Char}
    (present : c ∈ name.toList) : c ≠ '/' ∧ c ≠ '~' ∧ c ≠ '%' := by
  refine ⟨?_, ?_, ?_⟩
  all_goals
    rintro rfl
    exact absurd (List.all_eq_true.mp simple _ present) (by decide)

theorem toList_definitionPointer (name : String) :
    (definitionPointer name).toList = '#' :: '/' :: ("definitions".toList ++ '/' :: name.toList) := by
  rw [definitionPointer, String.toList_append]
  rfl

theorem definitionPointer_ne_root (name : String) : definitionPointer name ≠ rootPointer := by
  intro same
  have lists := congrArg String.toList same
  rw [toList_definitionPointer] at lists
  cases lists

/-- A binder finds the slot of the definition. -/
theorem resolve_slot {name : String} (simple : SimpleName name) {binder : Binder} {slot : Nat}
    (resolved : binder.resolve (definitionPointer name) = .ok slot) :
    binder.index.get? name = some slot := by
  have last : Binder.lastSegment? (definitionPointer name) = some name.toList :=
    Binder.lastSegment?_eq_some.mpr ⟨'#' :: '/' :: "definitions".toList,
      toList_definitionPointer name, fun present => (simple.ne present).1 rfl⟩
  unfold Binder.resolve at resolved
  rw [if_neg, last, Option.bind_some,
    Pointer.segmentName_of_plain fun c present => (simple.ne present).2.1] at resolved
  · split at resolved
    next found =>
      cases resolved
      exact found
    next => cases resolved
  · rintro (empty | root)
    · have lists := congrArg String.toList empty
      rw [toList_definitionPointer] at lists
      cases lists
    · exact definitionPointer_ne_root name root

/-- The segments of a fragment that has no escapes. -/
theorem resolve_of_toList {reference : String} {fragment : List Char}
    (chars : reference.toList = '#' :: fragment) (unescaped : '%' ∉ fragment) (schema : Json) :
    resolve schema reference = match Pointer.segments fragment with
      | [[]] => some schema
      | [] :: segments => partAt (segments.map Pointer.segmentName) schema
      | _ => none := by
  have decoded : percentDecode fragment = fragment := by
    unfold percentDecode
    rw [if_neg (by simpa using unescaped)]
  unfold resolve
  rw [chars]
  conv_rhs => rw [← decoded]
  rfl

theorem resolve_root (schema : Json) : resolve schema rootPointer = some schema :=
  resolve_of_toList rfl List.not_mem_nil schema

theorem partAt_definition {schema : Json} {definitions : Entries Json}
    (given : Document.definitionsOf schema = .obj definitions) (name : String) :
    partAt ["definitions", name] schema = definitions.get? name := by
  have found : partAt ["definitions", name] schema =
      (schema.get? "definitions").bind (partAt [name]) := by
    cases schema <;> rfl
  unfold Document.definitionsOf at given
  rw [found]
  cases stated : schema.get? "definitions" with
  | none =>
    rw [stated] at given
    cases given
    rfl
  | some value =>
    rw [stated] at given
    cases given
    show (definitions.get? name).bind some = definitions.get? name
    exact Option.bind_fun_some _

/-- A validator finds the definition itself. -/
theorem resolve_definition {name : String} (simple : SimpleName name) {schema : Json}
    {definitions : Entries Json} (given : Document.definitionsOf schema = .obj definitions) :
    resolve schema (definitionPointer name) = definitions.get? name := by
  have unescaped : '%' ∉ '/' :: ("definitions".toList ++ '/' :: name.toList) := by
    have absent : '%' ∉ name.toList := fun present => (simple.ne present).2.2 rfl
    simp [absent]
  have keyword : SimpleName "definitions" := rfl
  have segments : Pointer.segments ('/' :: ("definitions".toList ++ '/' :: name.toList)) =
      [[], "definitions".toList, name.toList] := by
    have nothing : ∀ c ∈ ([] : List Char), c ≠ '/' := fun _ absent => nomatch absent
    rw [← List.nil_append ('/' :: _), Pointer.segments_append nothing,
      Pointer.segments_append fun c present => (keyword.ne present).1,
      Pointer.segments_of_plain fun c present => (simple.ne present).1]
  rw [resolve_of_toList (toList_definitionPointer name) unescaped, segments]
  dsimp only
  rw [List.map_cons, List.map_cons, List.map_nil,
    Pointer.segmentName_of_plain fun c present => (simple.ne present).2.1,
    Pointer.segmentName_of_plain fun c present => (keyword.ne present).2.1]
  exact partAt_definition given name

/-! ## Ranks of links -/

/-- A reference to the pointer applies to the instance of the schema itself. Negated schemas are
left out because they have no references. -/
inductive Exposes : Json → String → Prop
  | reference {schema : Json} {pointer : String} :
      schema.get? "$ref" = some (.str pointer) → Exposes schema pointer
  | alternative {schema alternative : Json} {schemas : List Json} {pointer : String} :
      schema.get? "anyOf" = some (.arr schemas) → alternative ∈ schemas →
      Exposes alternative pointer → Exposes schema pointer

/-- What a link leads to refers on to the other pointer for the same instance. -/
def Leads (root : Json) (pointer other : String) : Prop :=
  IsLink pointer ∧ ∃ target, resolve root pointer = some target ∧ Exposes target other

/-- Every cycle of references passes through an item or a property. -/
def Guarded (root : Json) : Prop :=
  ∀ pointer, ¬ Relation.TransGen (Leads root) pointer pointer

/-- Numbers of pointers that fall along references for the same instance. -/
structure Ranking (root : Json) where
  bound : Nat
  rank : String → Nat
  bounded : ∀ pointer, rank pointer ≤ bound
  positive : ∀ {pointer target}, IsLink pointer → resolve root pointer = some target →
    0 < rank pointer
  falls : ∀ {pointer target other}, IsLink pointer → resolve root pointer = some target →
    Exposes target other → rank other < rank pointer

/-- The pointers that may lead somewhere. -/
def links (definitions : Entries Json) : List String :=
  rootPointer :: (Entries.names definitions).map definitionPointer

section Ranks

variable {root : Json} {definitions : Entries Json}
  (given : Document.definitionsOf root = .obj definitions)

include given

theorem mem_links {pointer : String} {target : Json} (link : IsLink pointer)
    (leads : resolve root pointer = some target) : pointer ∈ links definitions := by
  rcases link with rfl | ⟨name, rfl, simple⟩
  · exact List.mem_cons_self
  · rw [resolve_definition simple given] at leads
    have listed : (name, target) ∈ definitions := Entries.mem_of_get?_eq_some leads
    exact List.mem_cons_of_mem _ (List.mem_map_of_mem (Entries.mem_names_of_mem listed))

open Classical in
/-- A pointer ranks by how many links it leads to, itself included. -/
theorem Guarded.exists_ranking (guarded : Guarded root) :
    ∃ ranking : Ranking root, ranking.bound = definitions.length + 1 := by
  let onward (pointer : String) : Finset String :=
    (links definitions).toFinset.filter (Relation.ReflTransGen (Leads root) pointer)
  have length : (links definitions).length = definitions.length + 1 := by
    simp [links, Entries.names]
  have own {pointer : String} {target : Json} (link : IsLink pointer)
      (leads : resolve root pointer = some target) : pointer ∈ onward pointer :=
    Finset.mem_filter.mpr ⟨List.mem_toFinset.mpr (mem_links given link leads), .refl⟩
  refine ⟨⟨definitions.length + 1, fun pointer => (onward pointer).card, fun pointer => ?_,
    fun link leads => ?_, fun {pointer target other} link leads exposed => ?_⟩, rfl⟩
  · exact length ▸ (Finset.card_filter_le _ _).trans (List.toFinset_card_le _)
  · exact Finset.card_pos.mpr ⟨_, own link leads⟩
  · have step : Leads root pointer other := ⟨link, target, leads, exposed⟩
    refine Finset.card_lt_card (Finset.ssubset_iff_subset_ne.mpr ⟨fun later present => ?_, ?_⟩)
    · obtain ⟨listed, reached⟩ := Finset.mem_filter.mp present
      exact Finset.mem_filter.mpr ⟨listed, .head step reached⟩
    · -- The pointer itself is no longer reached, or there would be a cycle.
      intro same
      have back := (Finset.mem_filter.mp (same ▸ own link leads)).2
      exact guarded pointer (.head' step back)

end Ranks

/-! ## Budgets of validators -/

/-- What a reference checks when a number of references may still be followed. -/
def following (root : Json) : (fuel : Nat) → String → Check
  | 0 => fun pointer part => [{ part, cause := .unresolved pointer }]
  | fuel + 1 => fun pointer part =>
    match resolve root pointer with
    | some target => failures root fuel target part
    | none => [{ part, cause := .unresolved pointer }]

theorem failures_eq_view (root : Json) (fuel : Nat) (schema : Json) :
    failures root fuel schema = (view (following root fuel) schema).schema := by
  cases fuel <;> rfl

/-- A reference that resolves is followed at the price of one. -/
theorem following_of_resolved {root target : Json} {pointer : String}
    (leads : resolve root pointer = some target) (fuel : Nat) (value : Json) :
    following root (fuel + 1) pointer value = failures root fuel target value := by
  simp only [following, leads]

section Passes

variable {root schema value : Json} {ranking : Ranking root} {fuel : Nat}

/-- The budget is enough for the references that apply to the instance itself, and for all links at
each depth of it. -/
def Affords (ranking : Ranking root) (schema value : Json) (fuel : Nat) : Prop :=
  value.depth * ranking.bound ≤ fuel ∧ ∀ pointer, Exposes schema pointer →
    value.depth * ranking.bound + ranking.rank pointer ≤ fuel

/-- The instance has no failures with any budget that is enough. -/
def Passes (ranking : Ranking root) (schema value : Json) : Prop :=
  ∀ fuel, Affords ranking schema value fuel → failures root fuel schema value = []

/-- A part of an instance needs no more than the instance. -/
theorem Passes.inside {inner part : Json} (passes : Passes ranking inner part)
    (deeper : part.depth < value.depth) (affords : Affords ranking schema value fuel) :
    failures root fuel inner part = [] := by
  have levels : (part.depth + 1) * ranking.bound ≤ fuel :=
    (Nat.mul_le_mul_right _ deeper).trans affords.1
  rw [Nat.succ_mul] at levels
  refine passes fuel ⟨Nat.le_of_add_right_le levels, fun pointer _ => ?_⟩
  exact (Nat.add_le_add_left (ranking.bounded pointer) _).trans levels

/-- An alternative needs no more than the union. -/
theorem Passes.among {inner : Json} (passes : Passes ranking inner value)
    (exposed : ∀ pointer, Exposes inner pointer → Exposes schema pointer)
    (affords : Affords ranking schema value fuel) : failures root fuel inner value = [] :=
  passes fuel ⟨affords.1, fun pointer inside => affords.2 pointer (exposed pointer inside)⟩

/-- What a link leads to needs less than the link. -/
theorem Passes.through {pointer : String} {target : Json} (passes : Passes ranking target value)
    (link : IsLink pointer) (leads : resolve root pointer = some target)
    (exposed : Exposes schema pointer) (affords : Affords ranking schema value fuel) :
    following root fuel pointer value = [] := by
  have enough := affords.2 pointer exposed
  have positive := ranking.positive link leads
  cases fuel with
  | zero => omega
  | succ fuel =>
    rw [following_of_resolved leads]
    -- One reference is spent, and what is behind it ranks lower by at least one.
    refine passes fuel ⟨by omega, fun other onward => ?_⟩
    have falls := ranking.falls link leads onward
    omega

end Passes

/-! ## Sizes of schemas -/

/-- A schema has more parts than definitions. -/
theorem length_lt_nodes {root : Json} {definitions : Entries Json}
    (given : Document.definitionsOf root = .obj definitions) :
    definitions.length < Validator.nodes root := by
  unfold Document.definitionsOf at given
  cases stated : root.get? "definitions" with
  | none =>
    rw [stated] at given
    cases given
    exact Validator.one_le_nodes root
  | some value =>
    rw [stated] at given
    cases given
    cases root with
    | obj members =>
      have inner := Validator.nodes_le_memberNodes (Entries.mem_of_get?_eq_some stated)
      have longer := Validator.length_le_memberNodes definitions
      rw [Validator.nodes] at inner ⊢
      omega
    | _ => cases stated

/-- The budget of a validator is enough for the whole schema. -/
theorem isValid_of_passes {root value : Json} {definitions : Entries Json}
    (given : Document.definitionsOf root = .obj definitions) {ranking : Ranking root}
    (bound : ranking.bound = definitions.length + 1) (passes : Passes ranking root value) :
    (Validator.mk root).isValid value = true := by
  have levels : (value.depth + 2) * ranking.bound ≤ Validator.fuel root value := by
    rw [Validator.fuel, Nat.mul_comm, bound]
    exact Nat.mul_le_mul_right _ (length_lt_nodes given)
  rw [Nat.add_mul] at levels
  have passed : failures root (Validator.fuel root value) root value = [] := by
    refine passes _ ⟨by omega, fun pointer _ => ?_⟩
    have bounded := ranking.bounded pointer
    omega
  exact List.isEmpty_iff.mpr passed

end Schema

end SchemaSampler
