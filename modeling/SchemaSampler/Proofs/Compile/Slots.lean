import SchemaSampler.Proofs.Compile.Results
import SchemaSampler.Proofs.Entries
import SchemaSampler.Sampler

/-!
# Slots and the nodes they come from

Registration gives every name a slot of its own, none of which is the root's. The bodies are
filled in afterwards, so a compiled document has in every slot what the node of that slot compiles
to, whatever order the names come in.

Results:
1. `Binder.Consistent`, `Binder.Registered`: what registration keeps true of a binder.
2. `Document.slots_body`: a body is the compilation of the root or of a definition.
3. `Sampler.compile_eq_ok`: what a compiled sampler consists of.
-/

namespace SchemaSampler

namespace Binder

/-! ## Registration -/

/-- Names, index and bodies are in step. -/
structure Consistent (binder : Binder) : Prop where
  length_eq : binder.names.length = binder.bodies.length
  root : binder.names[rootSlot]? = some rootPointer
  sorted : binder.index.Sorted
  index_iff : ∀ {name : String} {slot : Nat},
    binder.index.get? name = some slot ↔ rootSlot < slot ∧ binder.names[slot]? = some name

/-- The binder is consistent, and no slot has a body yet. -/
structure Registered (binder : Binder) : Prop extends Consistent binder where
  unfilled : ∀ body ∈ binder.bodies, body = none

theorem consistent_empty : Consistent {} where
  length_eq := rfl
  root := rfl
  sorted := .nil
  index_iff {name slot} := by
    refine ⟨nofun, fun ⟨behind, found⟩ => ?_⟩
    have inside := (List.getElem?_eq_some_iff.mp found).1
    exact absurd behind (not_lt_of_ge (Nat.le_of_lt_succ inside))

theorem registered_empty : Registered {} :=
  ⟨consistent_empty, fun _ present => List.mem_singleton.mp present⟩

theorem register_of_found {binder : Binder} {name : String} {slot : Nat}
    (found : binder.index.get? name = some slot) : binder.register name = (slot, binder) := by
  unfold register
  rw [found]

theorem register_of_missing {binder : Binder} {name : String}
    (missing : binder.index.get? name = none) :
    (binder.register name).2 = ⟨binder.names ++ [name],
      binder.index.insert name binder.bodies.length, binder.bodies ++ [none]⟩ := by
  unfold register
  rw [missing]

theorem get?_register (binder : Binder) (name other : String) :
    (binder.register name).2.index.get? other =
      if other = name then some (binder.register name).1 else binder.index.get? other := by
  cases found : binder.index.get? name with
  | some slot =>
    rw [register_of_found found]
    split
    next same => rw [same, found]
    next => rfl
  | none =>
    unfold register
    rw [found]
    exact Entries.get?_insert name other binder.bodies.length binder.index

theorem getElem?_concat_eq_some {α : Type} {items : List α} {item other : α} {place : Nat} :
    (items ++ [item])[place]? = some other ↔
      items[place]? = some other ∨ place = items.length ∧ item = other := by
  rcases Nat.lt_trichotomy place items.length with inside | rfl | beyond
  · rw [List.getElem?_append_left inside]
    exact ⟨.inl, fun either => either.resolve_right fun last => inside.ne last.1⟩
  · rw [List.getElem?_concat_length, List.getElem?_eq_none (Nat.le_refl _)]
    simp
  · have outside : (items ++ [item]).length ≤ place := by
      rw [List.length_append]
      exact beyond
    rw [List.getElem?_eq_none outside, List.getElem?_eq_none beyond.le]
    exact ⟨nofun, fun either => either.elim nofun fun last => absurd last.1 beyond.ne'⟩

namespace Consistent

variable {binder : Binder} (consistent : binder.Consistent)

include consistent

theorem root_lt : rootSlot < binder.names.length :=
  (List.getElem?_eq_some_iff.mp consistent.root).1

theorem after_root {name : String} {slot : Nat} (found : binder.index.get? name = some slot) :
    rootSlot < slot := (consistent.index_iff.mp found).1

/-- Different names have different slots. -/
theorem injective {name other : String} {slot : Nat} (found : binder.index.get? name = some slot)
    (also : binder.index.get? other = some slot) : name = other :=
  Option.some.inj
    ((consistent.index_iff.mp found).2.symm.trans (consistent.index_iff.mp also).2)

theorem register (name : String) :
    (binder.register name).2.Consistent := by
  cases found : binder.index.get? name with
  | some slot =>
    rw [register_of_found found]
    exact consistent
  | none =>
    have same := consistent.length_eq
    have positive := consistent.root_lt
    rw [register_of_missing found]
    refine ⟨?_, ?_, consistent.sorted.insert name _, fun {other slot} => ?_⟩
    · rw [List.length_append, List.length_append, same]
      rfl
    · rw [List.getElem?_append_left positive]
      exact consistent.root
    · rw [Entries.get?_insert, getElem?_concat_eq_some]
      split
      next own =>
        subst own
        have unnamed : ¬ (rootSlot < slot ∧ binder.names[slot]? = some other) := fun named =>
          nomatch found.symm.trans (consistent.index_iff.mpr named)
        constructor
        · rintro ⟨⟩
          exact ⟨same ▸ positive, .inr ⟨same.symm, rfl⟩⟩
        · rintro ⟨behind, old | ⟨last, -⟩⟩
          · exact absurd ⟨behind, old⟩ unnamed
          · rw [last, same]
      next different =>
        rw [consistent.index_iff]
        refine and_congr_right fun _ => ⟨.inl, fun either => either.resolve_right ?_⟩
        rintro ⟨-, rfl⟩
        exact different rfl

end Consistent

theorem Registered.register {binder : Binder} (registered : Registered binder) (name : String) :
    Registered (binder.register name).2 := by
  refine ⟨registered.toConsistent.register name, fun body present => ?_⟩
  cases found : binder.index.get? name with
  | some slot =>
    rw [register_of_found found] at present
    exact registered.unfilled body present
  | none =>
    rw [register_of_missing found] at present
    cases List.mem_append.mp present with
    | inl old => exact registered.unfilled body old
    | inr new => exact List.mem_singleton.mp new

theorem registered_registerAll {binder : Binder} (registered : Registered binder)
    (names : List String) : Registered (Document.registerAll binder names) := by
  induction names generalizing binder with
  | nil => exact registered
  | cons name rest ih => exact ih (registered.register name)

/-- Names keep the slots that they have. -/
theorem get?_registerAll {binder : Binder} {name : String} {slot : Nat}
    (found : binder.index.get? name = some slot) (names : List String) :
    (Document.registerAll binder names).index.get? name = some slot := by
  induction names generalizing binder with
  | nil => exact found
  | cons other rest ih =>
    refine ih ?_
    rw [get?_register]
    split
    next same =>
      subst same
      rw [register_of_found found]
    next => exact found

theorem exists_get?_registerAll {name : String} {names : List String} (present : name ∈ names)
    (binder : Binder) : ∃ slot, (Document.registerAll binder names).index.get? name = some slot := by
  induction names generalizing binder with
  | nil => cases present
  | cons other rest ih =>
    cases List.mem_cons.mp present with
    | inl same =>
      refine ⟨(binder.register name).1, ?_⟩
      subst same
      exact get?_registerAll (by rw [get?_register, if_pos rfl]) rest
    | inr later => exact ih later _

/-! ## Bodies -/

/-- A filled slot has its new body, and nothing else changes. -/
theorem fill_bodies {binder filled : Binder} {slot : Nat} {body : Generator}
    (filling : binder.fill slot body = .ok filled) :
    filled.index = binder.index ∧ ∀ {place : Nat} {content : Generator},
      filled.bodies[place]? = some (some content) →
        place = slot ∧ content = body ∨ binder.bodies[place]? = some (some content) := by
  unfold fill at filling
  split at filling
  next =>
    cases filling
    refine ⟨rfl, fun {place content} found => ?_⟩
    rw [List.getElem?_set] at found
    split at found
    next here =>
      cases found
      exact .inl ⟨here.symm, rfl⟩
    next => exact .inr found
  next => cases filling

theorem bodiesOf_get? {names : List String} {bodies : List (Option Generator)}
    {closed : List Generator} (whole : bodiesOf names bodies = .ok closed) {slot : Nat}
    {body : Generator} (found : closed[slot]? = some body) : bodies[slot]? = some (some body) := by
  induction names, bodies using bodiesOf.induct generalizing closed slot with
  | case1 name names bodies first ih =>
    obtain ⟨rest, others, same⟩ := Except.bind_eq_ok.mp whole
    cases same
    cases slot with
    | zero => simpa using found
    | succ slot => simpa using ih others (by simpa using found)
  | case2 name names bodies => cases whole
  | case3 names bodies short =>
    rw [bodiesOf] at whole
    · cases whole
      simp at found
    · exact short

end Binder

/-! ## Documents -/

namespace Document

/-- What the nodes of a document are compiled against. -/
def compiler (document : Document) (options : Options) (registry : Registry) : Compiler :=
  ⟨registerAll {} (Entries.names document.definitions), options, document.source, registry⟩

theorem compiler_registered (document : Document) (options : Options) (registry : Registry) :
    (document.compiler options registry).binder.Registered :=
  Binder.registered_registerAll Binder.registered_empty _

/-- The body comes from a definition that has the slot. -/
def Defines (compiler : Compiler) (definitions : Entries Node) (slot : Nat) (body : Generator) :
    Prop :=
  ∃ name node, (name, node) ∈ definitions ∧ compiler.binder.index.get? name = some slot ∧
    compiler.compile node = .ok body

theorem fillAll_bodies {compiler : Compiler} {definitions : Entries Node} {binder filled : Binder}
    (index : binder.index = compiler.binder.index)
    (known : ∀ name ∈ Entries.names definitions, ∃ slot,
      compiler.binder.index.get? name = some slot)
    (ran : fillAll compiler binder definitions = .ok filled) {slot : Nat} {body : Generator}
    (found : filled.bodies[slot]? = some (some body)) :
    binder.bodies[slot]? = some (some body) ∨ Defines compiler definitions slot body := by
  induction definitions generalizing binder with
  | nil =>
    cases ran
    exact .inl found
  | cons definition rest ih =>
    obtain ⟨name, node⟩ := definition
    obtain ⟨generator, compiled, ran⟩ := Except.bind_eq_ok.mp ran
    obtain ⟨next, filling, ran⟩ := Except.bind_eq_ok.mp ran
    obtain ⟨own, has⟩ := known name List.mem_cons_self
    have slotIs : (binder.register name).1 = own := by
      rw [Binder.register_of_found (index ▸ has)]
    obtain ⟨kept, changed⟩ := Binder.fill_bodies filling
    -- A body found in the end was filled in later, filled in just now, or there before.
    rcases ih (kept.trans index) (fun other later => known other (List.mem_cons_of_mem _ later))
      ran with early | ⟨other, node, present, there, gives⟩
    · rcases changed early with ⟨here, same⟩ | before
      · rw [here, same]
        exact .inr ⟨name, node, List.mem_cons_self, slotIs ▸ has, compiled⟩
      · exact .inl before
    · exact .inr ⟨other, node, List.mem_cons_of_mem _ present, there, gives⟩

/-- Every body is what the root or a definition of its slot compiles to. -/
theorem slots_body {document : Document} {options : Options} {registry : Registry} {slots : Slots}
    (compiled : document.slots options registry = .ok slots) {slot : Nat} {body : Generator}
    (found : slots.bodies[slot]? = some body) :
    (slot = rootSlot ∧ (document.compiler options registry).compile document.root = .ok body) ∨
      Defines (document.compiler options registry) document.definitions slot body := by
  have registered := compiler_registered document options registry
  obtain ⟨root, rootCompiled, compiled⟩ := Except.bind_eq_ok.mp compiled
  obtain ⟨withRoot, filling, compiled⟩ := Except.bind_eq_ok.mp compiled
  obtain ⟨filled, ran, compiled⟩ := Except.bind_eq_ok.mp compiled
  obtain ⟨bodies, whole, same⟩ := Except.bind_eq_ok.mp compiled
  cases same
  obtain ⟨index, changed⟩ := Binder.fill_bodies filling
  have known : ∀ name ∈ Entries.names document.definitions, ∃ slot,
      (document.compiler options registry).binder.index.get? name = some slot :=
    fun name present => Binder.exists_get?_registerAll present {}
  rcases fillAll_bodies index known ran (Binder.bodiesOf_get? whole found) with early | defined
  · rcases changed early with ⟨here, same⟩ | before
    · exact .inl ⟨here, same ▸ rootCompiled⟩
    · exact nomatch registered.unfilled _ (List.mem_of_getElem? before)
  · exact .inr defined

/-- The root's slot has the root only. -/
theorem slots_root {document : Document} {options : Options} {registry : Registry} {slots : Slots}
    (compiled : document.slots options registry = .ok slots) {body : Generator}
    (found : slots.bodies[rootSlot]? = some body) :
    (document.compiler options registry).compile document.root = .ok body := by
  rcases slots_body compiled found with ⟨-, compiles⟩ | ⟨_, _, -, indexed, -⟩
  · exact compiles
  · have registered := compiler_registered document options registry
    exact absurd (registered.after_root indexed) (Nat.lt_irrefl _)

end Document

/-! ## Samplers -/

namespace Sampler

theorem compile_eq_ok {schema : Json} {options : Options} {registry : Registry}
    {sampler : Sampler} :
    compile schema options registry = .ok sampler ↔
      ∃ document, Document.parse schema = .ok document ∧
        document.slots options registry = .ok sampler.slots ∧
        sampler.slots.bodies[rootSlot]? = some sampler.entry ∧ sampler.options = options := by
  unfold compile
  cases Document.parse schema with
  | error fault => exact ⟨nofun, fun ⟨_, absent, _⟩ => nomatch absent⟩
  | ok document =>
    dsimp only
    rw [Except.bind_eq_ok]
    constructor
    · rintro ⟨slots, compiled, rest⟩
      obtain ⟨entry, body, same⟩ := Except.bind_eq_ok.mp rest
      cases same
      refine ⟨document, rfl, compiled, ?_, rfl⟩
      unfold Slots.body Generator.bodyIn at body
      split at body
      next found => exact found.trans (congrArg _ (Except.ok.inj body))
      next => cases body
    · rintro ⟨_, same, compiled, found, rfl⟩
      cases same
      refine ⟨sampler.slots, compiled, Except.bind_eq_ok.mpr ⟨sampler.entry, ?_, rfl⟩⟩
      unfold Slots.body Generator.bodyIn
      rw [found]

theorem compileHoisted_eq_ok {schema : Json} {options : Options} {registry : Registry}
    {sampler : Sampler} :
    compileHoisted schema options registry = .ok sampler ↔
      ∃ raw, compile schema options registry = .ok raw ∧ sampler = raw.hoisted := by
  unfold compileHoisted
  rw [Except.bind_eq_ok]
  constructor
  · rintro ⟨raw, compiled, same⟩
    exact ⟨raw, compiled, (Except.ok.inj same).symm⟩
  · rintro ⟨raw, compiled, same⟩
    exact ⟨raw, compiled, congrArg _ same.symm⟩

theorem samples_congr {sampler twin : Sampler} (same : ∀ source, sampler.draw source = twin.draw source)
    (source : Source) (count : Nat) : sampler.samples source count = twin.samples source count := by
  induction count generalizing source with
  | zero => rfl
  | succ count ih => simp only [samples, same, ih]

end Sampler

end SchemaSampler
