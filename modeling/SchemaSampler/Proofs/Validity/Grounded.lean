import SchemaSampler.Proofs.Validity.Applied
import SchemaSampler.Proofs.Validity.References

/-!
# Schemas grounded in definitions

The references of a schema may all name definitions, wherever they stand: in the schema, or in a
definition that others lead to. If none of them leads back to itself for one and the same instance,
the definitions decide what the schema means, and the root around them does not. Two validators
with these definitions then find the same failures, although their budgets differ.

Results:
1. `resolve_definitionName`: a pointer to a definition leads there in every root.
2. `Grounded.rank_lt`: ranks that fall along references for the same instance.
3. `Grounded.failures_eq`: two roots with the same definitions.
4. `fuel_covers`: the budgets of both validators are enough.
-/

namespace SchemaSampler

namespace Schema

open Relation

/-! ## Pointers to definitions -/

/-- The name of the definition that a pointer asks for, its escapes undone. -/
def definitionName? (pointer : String) : Option String :=
  match pointer.toList with
  | '#' :: fragment =>
    match Pointer.segments (percentDecode fragment) with
    | [[], keyword, name] =>
      if Pointer.segmentName keyword = "definitions" then some (Pointer.segmentName name) else none
    | _ => none
  | _ => none

theorem resolve_definitionName {pointer name : String} (asks : definitionName? pointer = some name)
    {root : Json} {definitions : Entries Json}
    (given : Document.definitionsOf root = .obj definitions) :
    resolve root pointer = definitions.get? name := by
  unfold definitionName? at asks
  split at asks
  next fragment chars =>
    split at asks
    next keyword segment segments =>
      split at asks
      next same =>
        cases asks
        unfold resolve
        simp only [chars, segments]
        show partAt [Pointer.segmentName keyword, Pointer.segmentName segment] root = _
        rw [same, partAt_definition given]
      next => cases asks
    next => cases asks
  next => cases asks

/-! ## What a schema leads to -/

/-- The first schema applies the second one to its own instance. -/
inductive Turns (definitions : Entries Json) (schema : Json) : Json → Prop
  | beside {inner : Json} : ¬ IsReference schema → Beside schema inner →
      Turns definitions schema inner
  | reference {pointer name : String} {target : Json} :
      schema.get? "$ref" = some (.str pointer) → definitionName? pointer = some name →
      definitions.get? name = some target → Turns definitions schema target

/-- The first schema applies the second one to its instance or to parts of it. -/
inductive Applies (definitions : Entries Json) (schema : Json) : Json → Prop
  | turns {inner : Json} : Turns definitions schema inner → Applies definitions schema inner
  | below {inner : Json} : ¬ IsReference schema → Below schema inner →
      Applies definitions schema inner

/-- A reference applies the definition that it asks for and nothing beside it. -/
theorem Applies.of_reference {definitions : Entries Json} {schema inner : Json}
    {pointer name : String} (applies : Applies definitions schema inner)
    (stated : schema.get? "$ref" = some (.str pointer))
    (asks : definitionName? pointer = some name) : definitions.get? name = some inner := by
  obtain (⟨plain, -⟩ | ⟨again, asksAgain, found⟩) | ⟨plain, -⟩ := applies
  · exact absurd ⟨pointer, stated⟩ plain
  · cases stated.symm.trans again
    cases asks.symm.trans asksAgain
    exact found
  · exact absurd ⟨pointer, stated⟩ plain

/-- All references that count name definitions, and every cycle of them passes through an item, a
property or a name. -/
structure Grounded (definitions : Entries Json) (schema : Json) : Prop where
  names : ∀ inner, ReflTransGen (Applies definitions) schema inner → ∀ pointer,
    inner.get? "$ref" = some (.str pointer) →
    ∃ name, definitionName? pointer = some name ∧ name ∈ Entries.names definitions
  ends : ∀ inner, ReflTransGen (Applies definitions) schema inner →
    ¬ TransGen (Turns definitions) inner inner

namespace Grounded

variable {definitions : Entries Json} {schema : Json}

theorem inner (grounded : Grounded definitions schema) {inner : Json}
    (applies : Applies definitions schema inner) : Grounded definitions inner :=
  ⟨fun _ reached => grounded.names _ (reached.head applies),
    fun _ reached => grounded.ends _ (reached.head applies)⟩

theorem target (grounded : Grounded definitions schema) {pointer : String}
    (stated : schema.get? "$ref" = some (.str pointer)) : ∃ name target,
      definitionName? pointer = some name ∧ definitions.get? name = some target := by
  obtain ⟨name, asks, known⟩ := grounded.names schema .refl pointer stated
  obtain ⟨target, found⟩ := Entries.exists_get?_of_mem_names known
  exact ⟨name, target, asks, found⟩

/-- A set of schemas that leads nowhere else, with numbers that fall on the way to a schema for the
same instance. -/
theorem of_closed (inside : Json → Prop) (height : Json → Nat) (own : inside schema)
    (closed : ∀ outer inner, inside outer → Applies definitions outer inner → inside inner)
    (names : ∀ outer, inside outer → ∀ pointer, outer.get? "$ref" = some (.str pointer) →
      ∃ name, definitionName? pointer = some name ∧ name ∈ Entries.names definitions)
    (falls : ∀ outer inner, inside outer → Turns definitions outer inner →
      height inner < height outer) : Grounded definitions schema := by
  have reached {inner : Json} (path : ReflTransGen (Applies definitions) schema inner) :
      inside inner := by
    induction path with
    | refl => exact own
    | tail _ step ih => exact closed _ _ ih step
  have lower {outer inner : Json} (start : inside outer)
      (path : TransGen (Turns definitions) outer inner) :
      inside inner ∧ height inner < height outer := by
    induction path with
    | single step => exact ⟨closed _ _ start (.turns step), falls _ _ start step⟩
    | tail _ step ih =>
      exact ⟨closed _ _ ih.1 (.turns step), (falls _ _ ih.1 step).trans ih.2⟩
  exact ⟨fun inner path => names inner (reached path),
    fun inner path cycle => Nat.lt_irrefl _ (lower (reached path) cycle).2⟩

end Grounded

/-! ## Ranks -/

section Ranks

variable {definitions : Entries Json} {schema : Json}

/-- The schema comes to a reference to the definition without leaving its instance. -/
def AsksFor (definitions : Entries Json) (schema : Json) (name : String) : Prop :=
  ∃ inner pointer, ReflTransGen (Turns definitions) schema inner ∧
    inner.get? "$ref" = some (.str pointer) ∧ definitionName? pointer = some name

theorem AsksFor.of_turns {inner : Json} (turns : Turns definitions schema inner) {name : String}
    (asks : AsksFor definitions inner name) : AsksFor definitions schema name :=
  have ⟨later, pointer, reached, stated, named⟩ := asks
  ⟨later, pointer, reached.head turns, stated, named⟩

open Classical in
/-- The definitions that the schema asks for. -/
noncomputable def askedFor (definitions : Entries Json) (schema : Json) : Finset String :=
  (Entries.names definitions).toFinset.filter (AsksFor definitions schema)

theorem mem_askedFor {name : String} : name ∈ askedFor definitions schema ↔
    name ∈ Entries.names definitions ∧ AsksFor definitions schema name := by
  classical rw [askedFor, Finset.mem_filter, List.mem_toFinset]

theorem askedFor_subset {inner : Json} (turns : Turns definitions schema inner) :
    askedFor definitions inner ⊆ askedFor definitions schema := by
  intro name counted
  obtain ⟨known, asks⟩ := mem_askedFor.mp counted
  exact mem_askedFor.mpr ⟨known, asks.of_turns turns⟩

/-- A schema ranks by how many definitions it asks for. -/
noncomputable def rank (definitions : Entries Json) (schema : Json) : Nat :=
  (askedFor definitions schema).card

theorem rank_le : rank definitions schema ≤ definitions.length := by
  classical
  rw [rank, askedFor]
  refine (Finset.card_filter_le _ _).trans ((List.toFinset_card_le _).trans ?_)
  rw [Entries.names, List.length_map]

theorem rank_le_of_turns {inner : Json} (turns : Turns definitions schema inner) :
    rank definitions inner ≤ rank definitions schema :=
  Finset.card_le_card (askedFor_subset turns)

/-- What a reference leads to does not ask for the same definition again. -/
theorem Grounded.rank_lt (grounded : Grounded definitions schema) {pointer name : String}
    {target : Json} (stated : schema.get? "$ref" = some (.str pointer))
    (asks : definitionName? pointer = some name) (found : definitions.get? name = some target) :
    rank definitions target < rank definitions schema := by
  have turns : Turns definitions schema target := .reference stated asks found
  refine Finset.card_lt_card (Finset.ssubset_iff_subset_ne.mpr ⟨askedFor_subset turns, ?_⟩)
  intro same
  have known : name ∈ Entries.names definitions :=
    Entries.mem_names_of_mem (Entries.mem_of_get?_eq_some found)
  have own : name ∈ askedFor definitions schema :=
    mem_askedFor.mpr ⟨known, schema, pointer, .refl, stated, asks⟩
  obtain ⟨-, inner, back, reached, again, asksAgain⟩ := mem_askedFor.mp (same ▸ own)
  exact grounded.ends target (.single (.turns turns))
    (.tail' reached (.reference again asksAgain found))

end Ranks

/-! ## Sizes of schemas -/

theorem nodes_lt_of_get? {schema value : Json} {name : String}
    (stated : schema.get? name = some value) : Validator.nodes value < Validator.nodes schema := by
  cases schema with
  | obj members =>
    rw [Validator.nodes]
    exact Nat.lt_succ_of_le (Validator.nodes_le_memberNodes (Entries.mem_of_get?_eq_some stated))
  | _ => cases stated

theorem nodes_le_of_listed {value inner : Json} (present : inner ∈ listed value) :
    Validator.nodes inner ≤ Validator.nodes value := by
  cases value with
  | arr schemas =>
    rw [Validator.nodes]
    exact (Validator.nodes_le_itemNodes present).trans (Nat.le_succ _)
  | _ => cases present

theorem nodes_le_of_named {value inner : Json} {name : String}
    (found : (named value).get? name = some inner) :
    Validator.nodes inner ≤ Validator.nodes value := by
  cases value with
  | obj schemas =>
    rw [Validator.nodes]
    exact (Validator.nodes_le_memberNodes (Entries.mem_of_get?_eq_some found)).trans (Nat.le_succ _)
  | _ => cases found

theorem Beside.nodes_lt {schema inner : Json} (beside : Beside schema inner) :
    Validator.nodes inner < Validator.nodes schema := by
  cases beside with
  | whole _ stated => exact nodes_lt_of_get? stated
  | listed _ stated present => exact (nodes_le_of_listed present).trans_lt (nodes_lt_of_get? stated)
  | dependency stated found => exact (nodes_le_of_named found).trans_lt (nodes_lt_of_get? stated)

/-! ## Two roots -/

/-- Roots with the same definitions give a grounded schema the same failures, with every budget for
the references at each depth of the instance. -/
theorem Grounded.failures_eq {definitions further : Entries Json} {root other : Json}
    (given : Document.definitionsOf root = .obj definitions)
    (otherGiven : Document.definitionsOf other = .obj further)
    (kept : ∀ name ∈ Entries.names definitions, further.get? name = definitions.get? name)
    {schema : Json} (grounded : Grounded definitions schema) {value : Json} {fuel budget : Nat}
    (enough : value.depth * definitions.length + rank definitions schema ≤ fuel)
    (otherEnough : value.depth * definitions.length + rank definitions schema ≤ budget) :
    failures root fuel schema value = failures other budget schema value := by
  rw [failures_eq_view, failures_eq_view]
  refine view_congr (fun pointer stated => ?_) (fun plain inner beside => ?_)
    fun plain inner below deeper inside => ?_
  · obtain ⟨name, target, asks, found⟩ := grounded.target stated
    have falls := grounded.rank_lt stated asks found
    have leads : resolve root pointer = some target :=
      (resolve_definitionName asks given).trans found
    have also : resolve other pointer = some target := by
      rw [resolve_definitionName asks otherGiven, kept name, found]
      exact Entries.mem_names_of_mem (Entries.mem_of_get?_eq_some found)
    -- One reference is spent on each side, and what is behind it ranks lower.
    obtain ⟨fuel, rfl⟩ := Nat.exists_eq_add_one_of_ne_zero (by omega : fuel ≠ 0)
    obtain ⟨budget, rfl⟩ := Nat.exists_eq_add_one_of_ne_zero (by omega : budget ≠ 0)
    rw [following_of_resolved leads, following_of_resolved also]
    exact (grounded.inner (.turns (.reference stated asks found))).failures_eq given otherGiven kept
      (by omega) (by omega)
  · have turns : Turns definitions schema inner := .beside plain beside
    have ranks := rank_le_of_turns turns
    show (view _ inner).schema value = (view _ inner).schema value
    rw [← failures_eq_view, ← failures_eq_view]
    exact (grounded.inner (.turns turns)).failures_eq given otherGiven kept (by omega) (by omega)
  · -- A part leaves a whole level of the budget, which covers every rank.
    have level : (deeper.depth + 1) * definitions.length ≤ value.depth * definitions.length :=
      Nat.mul_le_mul_right _ inside
    have ranks : rank definitions inner ≤ definitions.length := rank_le
    rw [Nat.succ_mul] at level
    show (view _ inner).schema deeper = (view _ inner).schema deeper
    rw [← failures_eq_view, ← failures_eq_view]
    exact (grounded.inner (.below plain below)).failures_eq given otherGiven kept (by omega)
      (by omega)
termination_by (value.depth, fuel, Validator.nodes schema)
decreasing_by
  · exact .right _ (.left _ _ (by omega))
  · exact .right _ (.right _ beside.nodes_lt)
  · exact .left _ _ inside

/-- The budget of a validator counts a level for every depth of the instance and one more. -/
theorem fuel_covers {definitions further : Entries Json} {root : Json}
    (given : Document.definitionsOf root = .obj further)
    (fewer : definitions.length ≤ further.length) (schema value : Json) :
    value.depth * definitions.length + rank definitions schema ≤ Validator.fuel root value := by
  have levels : (value.depth + 2) * definitions.length ≤ Validator.fuel root value := by
    rw [Validator.fuel, Nat.mul_comm]
    exact Nat.mul_le_mul_right _ (fewer.trans (length_lt_nodes given).le)
  have ranks : rank definitions schema ≤ definitions.length := rank_le
  rw [Nat.add_mul] at levels
  omega

end Schema

end SchemaSampler
