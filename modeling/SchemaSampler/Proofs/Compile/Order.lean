import SchemaSampler.Proofs.Compile.Slots

/-!
# The order of slots

Registration, compilation, filling and freezing each go through the definitions. Over definitions
of different names they come to the same as compiling the root and then the definitions in order,
so the slot of a definition is one more than its place.

Results:
1. `Document.slots_eq`: the slots of a document by one pass over its nodes.
2. `Document.targets_of_resolve`: the slots that pointers reach.
-/

namespace SchemaSampler

namespace Binder

/-! ## Registration in order -/

/-- A binder with further names, which have the slots after those before. -/
structure Extends (binder extended : Binder) (added : List String) : Prop where
  names : extended.names = binder.names ++ added
  bodies : extended.bodies = binder.bodies ++ List.replicate added.length none
  slot : ∀ {place : Nat} {name : String}, added[place]? = some name →
    extended.index.get? name = some (binder.bodies.length + place)
  others : ∀ {name : String}, name ∉ added → extended.index.get? name = binder.index.get? name

theorem registerAll_extends {added : List String} (distinct : added.Nodup) {binder : Binder}
    (fresh : ∀ name ∈ added, binder.index.get? name = none) :
    Extends binder (Document.registerAll binder added) added := by
  induction added generalizing binder with
  | nil =>
    exact ⟨(List.append_nil _).symm, (List.append_nil _).symm, (fun absent => nomatch absent),
      fun _ => rfl⟩
  | cons name rest ih =>
    obtain ⟨missing, distinct⟩ := List.nodup_cons.mp distinct
    have registered := register_of_missing (fresh name List.mem_cons_self)
    have index : ∀ other, (binder.register name).2.index.get? other =
        if other = name then some binder.bodies.length else binder.index.get? other := by
      intro other
      rw [registered]
      exact Entries.get?_insert _ _ _ _
    have later : ∀ other ∈ rest, (binder.register name).2.index.get? other = none := by
      intro other present
      have different : other ≠ name := fun same => missing (same ▸ present)
      rw [index, if_neg different]
      exact fresh other (List.mem_cons_of_mem _ present)
    obtain ⟨names, bodies, slot, others⟩ := ih distinct later
    refine ⟨?_, ?_, fun {place other} found => ?_, fun {other} absent => ?_⟩
    · refine names.trans ?_
      rw [registered, List.append_assoc]
      rfl
    · refine bodies.trans ?_
      rw [registered, List.append_assoc]
      rfl
    · cases place with
      | zero =>
        cases found
        exact (others missing).trans (by rw [index, if_pos rfl]; rfl)
      | succ place =>
        refine (slot found).trans ?_
        rw [registered, List.length_append, Nat.add_right_comm]
        rfl
    · rw [List.mem_cons, not_or] at absent
      exact (others absent.2).trans (by rw [index, if_neg absent.1])

/-! ## Filling in order -/

theorem bodiesOf_map_some {names : List String} {bodies : List Generator}
    (same : names.length = bodies.length) : bodiesOf names (bodies.map some) = .ok bodies := by
  induction names generalizing bodies with
  | nil => rw [List.length_eq_zero_iff.mp same.symm]; rfl
  | cons name rest ih =>
    obtain ⟨body, others, rfl⟩ := List.exists_cons_of_length_eq_add_one same.symm
    rw [List.map_cons, bodiesOf, ih (Nat.succ.inj same)]
    rfl

end Binder

namespace Document

/-- Definitions that have the next slots fill them in order. -/
theorem fillAll_eq {compiler : Compiler} {definitions : Entries Node} {binder : Binder}
    {filled : List (Option Generator)}
    (bodies : binder.bodies = filled ++ List.replicate definitions.length none)
    (slot : ∀ {place : Nat} {name : String}, (Entries.names definitions)[place]? = some name →
      binder.index.get? name = some (filled.length + place)) :
    fillAll compiler binder definitions =
      (Entries.values definitions).mapM compiler.compile >>= fun added =>
        .ok { binder with bodies := filled ++ added.map some } := by
  induction definitions generalizing binder filled with
  | nil =>
    show Except.ok binder = Except.ok { binder with bodies := filled ++ [] }
    rw [show filled ++ [] = binder.bodies from bodies.symm]
  | cons definition rest ih =>
    obtain ⟨name, node⟩ := definition
    rw [fillAll, show Entries.values ((name, node) :: rest) = node :: Entries.values rest from rfl,
      List.mapM_cons]
    cases compiler.compile node with
    | error => rfl
    | ok body =>
      have first : (Entries.names ((name, node) :: rest))[0]? = some name := rfl
      have own : binder.index.get? name = some filled.length := slot first
      have inside : filled.length < binder.bodies.length := by
        rw [bodies, List.length_append, List.length_replicate, List.length_cons]
        omega
      let next : Binder := { binder with bodies := binder.bodies.set filled.length (some body) }
      have filling : binder.fill (binder.register name).1 body = .ok next := by
        rw [Binder.register_of_found own, Binder.fill, if_pos inside]
      have bodies : next.bodies = (filled ++ [some body]) ++ List.replicate rest.length none := by
        show binder.bodies.set filled.length (some body) = _
        rw [bodies, List.set_append_right _ _ (Nat.le_refl _), Nat.sub_self, List.append_assoc]
        rfl
      have later := ih bodies fun {place other} found => by
        rw [List.length_append, Nat.add_assoc, Nat.add_comm _ place]
        exact slot found
      show (binder.fill (binder.register name).1 body >>= fun binder =>
        fillAll compiler binder rest) = _
      rw [filling]
      refine later.trans ?_
      cases (Entries.values rest).mapM compiler.compile with
      | error => rfl
      | ok added =>
        show Except.ok { next with bodies := (filled ++ [some body]) ++ added.map some } = _
        rw [List.append_assoc]
        rfl

/-- The slots of a document hold the root and the definitions in their order. -/
theorem slots_eq {document : Document} (distinct : (Entries.names document.definitions).Nodup)
    (options : Options) (registry : Registry) :
    document.slots options registry =
      (document.compiler options registry).compile document.root >>= fun root =>
        (Entries.values document.definitions).mapM
          (document.compiler options registry).compile >>= fun bodies =>
        .ok ⟨rootPointer :: Entries.names document.definitions, root :: bodies⟩ := by
  let compiler := document.compiler options registry
  have registered : Binder.Extends {} compiler.binder (Entries.names document.definitions) :=
    Binder.registerAll_extends distinct fun _ _ => rfl
  show (compiler.compile document.root >>= fun root => compiler.binder.fill rootSlot root >>=
    fun binder => fillAll compiler binder document.definitions >>= Binder.freeze) = _
  cases compiler.compile document.root with
  | error => rfl
  | ok root =>
    let next : Binder := { compiler.binder with bodies := compiler.binder.bodies.set 0 (some root) }
    have inside : 0 < compiler.binder.bodies.length := by
      rw [registered.bodies]
      exact Nat.succ_pos _
    have filling : compiler.binder.fill rootSlot root = .ok next := if_pos inside
    have bodies : next.bodies = [some root] ++
        List.replicate document.definitions.length none := by
      show compiler.binder.bodies.set 0 (some root) = _
      rw [registered.bodies, Entries.names, List.length_map]
      rfl
    have filled : fillAll compiler next document.definitions = _ :=
      fillAll_eq bodies fun found => registered.slot found
    show (compiler.binder.fill rootSlot root >>= fun binder =>
      fillAll compiler binder document.definitions >>= Binder.freeze) = _
    rw [filling]
    show (fillAll compiler next document.definitions >>= Binder.freeze) = _
    rw [filled]
    cases ran : (Entries.values document.definitions).mapM compiler.compile with
    | error => rfl
    | ok added =>
      have counted := (Except.mapM_eq_ok ran).length_eq
      have whole : Binder.bodiesOf next.names ((root :: added).map some) = .ok (root :: added) := by
        refine Binder.bodiesOf_map_some ?_
        show compiler.binder.names.length = _
        rw [registered.names]
        simpa [Entries.names, Entries.values] using counted
      show (Binder.bodiesOf next.names ((root :: added).map some) >>= fun bodies =>
        Except.ok (Slots.mk next.names bodies)) = _
      rw [whole]
      show Except.ok (Slots.mk compiler.binder.names (root :: added)) = _
      rw [registered.names]
      rfl

theorem slots_eq_ok {document : Document} (distinct : (Entries.names document.definitions).Nodup)
    {options : Options} {registry : Registry} {slots : Slots} :
    document.slots options registry = .ok slots ↔
      ∃ root bodies, (document.compiler options registry).compile document.root = .ok root ∧
        (Entries.values document.definitions).mapM (document.compiler options registry).compile =
          .ok bodies ∧
        slots = ⟨rootPointer :: Entries.names document.definitions, root :: bodies⟩ := by
  rw [slots_eq distinct]
  constructor
  · intro compiled
    obtain ⟨root, own, compiled⟩ := Except.bind_eq_ok.mp compiled
    obtain ⟨bodies, added, same⟩ := Except.bind_eq_ok.mp compiled
    exact ⟨root, bodies, own, added, (Except.ok.inj same).symm⟩
  · rintro ⟨root, bodies, own, added, rfl⟩
    exact Except.bind_eq_ok.mpr ⟨root, own, Except.bind_eq_ok.mpr ⟨bodies, added, rfl⟩⟩

end Document

/-! ## Pointers -/

/-- The last segment of a pointer is what follows its last slash. -/
theorem Binder.lastSegment?_eq_some {pointer : String} {segment : List Char} :
    lastSegment? pointer = some segment ↔
      ∃ before, pointer.toList = before ++ '/' :: segment ∧ '/' ∉ segment := by
  unfold lastSegment?
  dsimp only
  constructor
  · intro found
    split at found
    next slash =>
      cases found
      let backwards := pointer.toList.reverse
      have joined : backwards.takeWhile (fun c => c != '/') ++ backwards.dropWhile (fun c => c != '/') =
          backwards := List.takeWhile_append_dropWhile
      have plain : '/' ∉ backwards.takeWhile fun c => c != '/' :=
        fun present => absurd (List.mem_takeWhile_imp present) (by simp)
      -- What the last segment leaves, read backwards, starts with the slash before it.
      cases rest : backwards.dropWhile fun c => c != '/' with
      | nil =>
        rw [rest, List.append_nil] at joined
        rw [joined] at plain
        exact absurd (List.mem_reverse.mpr (List.contains_iff_mem.mp slash)) plain
      | cons c before =>
        have first : c = '/' := by
          have stops := List.head?_dropWhile_not (fun c => c != '/') backwards
          rw [rest] at stops
          simpa using stops
        refine ⟨before.reverse, ?_, fun present => plain (List.mem_reverse.mp present)⟩
        rw [rest, first] at joined
        have forwards := congrArg List.reverse joined
        rw [List.reverse_append, List.reverse_cons, List.append_assoc, List.reverse_reverse]
          at forwards
        exact forwards.symm
    next => cases found
  · rintro ⟨before, same, plain⟩
    have slash : pointer.toList.contains '/' = true := by
      rw [same]
      simp
    have kept : (segment.reverse ++ '/' :: before.reverse).takeWhile (fun c => c != '/') =
        segment.reverse := by
      rw [List.takeWhile_append_of_pos]
      · simp
      · intro c present
        simpa using fun same : c = '/' => plain (same ▸ List.mem_reverse.mp present)
    rw [if_pos slash, same, List.reverse_append, List.reverse_cons, List.append_assoc,
      List.singleton_append, kept, List.reverse_reverse]

namespace Document

/-- The root, or the definition that the last segment names, has the slot. -/
inductive Targets (document : Document) : String → Nat → Prop
  | empty : Targets document "" rootSlot
  | root : Targets document rootPointer rootSlot
  | definition {pointer : String} {before segment : List Char} {place : Nat} {node : Node} :
      pointer ≠ "" → pointer ≠ rootPointer → pointer.toList = before ++ '/' :: segment →
      '/' ∉ segment → document.definitions[place]? = some (Pointer.segmentName segment, node) →
      Targets document pointer (place + 1)

theorem index_eq_some {document : Document} (distinct : (Entries.names document.definitions).Nodup)
    {options : Options} {registry : Registry} {name : String} {slot : Nat} :
    (document.compiler options registry).binder.index.get? name = some slot ↔
      ∃ place, (Entries.names document.definitions)[place]? = some name ∧ slot = place + 1 := by
  have registered : Binder.Extends {} (document.compiler options registry).binder
      (Entries.names document.definitions) := Binder.registerAll_extends distinct fun _ _ => rfl
  constructor
  · intro found
    by_cases present : name ∈ Entries.names document.definitions
    · obtain ⟨place, there⟩ := List.getElem?_of_mem present
      refine ⟨place, there, ?_⟩
      have own := registered.slot there
      rw [found, Nat.add_comm] at own
      exact Option.some.inj own
    · rw [registered.others present] at found
      cases found
  · rintro ⟨place, there, rfl⟩
    rw [registered.slot there, Nat.add_comm]
    rfl

/-- Resolution reaches the slots that pointers target. -/
theorem targets_of_resolve {document : Document}
    (distinct : (Entries.names document.definitions).Nodup) {options : Options}
    {registry : Registry} {pointer : String} {slot : Nat}
    (resolved : (document.compiler options registry).binder.resolve pointer = .ok slot) :
    document.Targets pointer slot := by
  unfold Binder.resolve at resolved
  split at resolved
  next rooted =>
    cases resolved
    rcases rooted with rfl | rfl
    · exact .empty
    · exact .root
  next named =>
    obtain ⟨nonempty, further⟩ := not_or.mp named
    split at resolved
    next own found =>
      cases resolved
      obtain ⟨segment, last, there⟩ := Option.bind_eq_some_iff.mp found
      obtain ⟨before, same, plain⟩ := Binder.lastSegment?_eq_some.mp last
      obtain ⟨place, listed, rfl⟩ := (index_eq_some distinct).mp there
      rw [Entries.names, List.getElem?_map] at listed
      obtain ⟨⟨name, node⟩, stands, rfl⟩ := Option.map_eq_some_iff.mp listed
      exact .definition nonempty further same plain stands
    next => cases resolved

end Document

namespace Sampler

/-- The sampler of a schema without definitions has only the root's slot. -/
theorem compileHoisted_of_root {schema source : Json} {root : Node} {options : Options}
    {registry : Registry} {body : Generator}
    (parsed : Document.parse schema = .ok ⟨root, [], source⟩)
    (compiled : (Document.compiler ⟨root, [], source⟩ options registry).compile root = .ok body) :
    compileHoisted schema options registry =
      .ok (hoisted ⟨body, ⟨[rootPointer], [body]⟩, options⟩) := by
  have distinct : (Entries.names (Document.definitions ⟨root, [], source⟩)).Nodup :=
    List.nodup_nil
  have slots : Document.slots ⟨root, [], source⟩ options registry =
      .ok ⟨[rootPointer], [body]⟩ :=
    (Document.slots_eq_ok distinct).mpr ⟨body, [], compiled, rfl, rfl⟩
  exact compileHoisted_eq_ok.mpr ⟨_, compile_eq_ok.mpr ⟨_, parsed, slots, rfl, rfl⟩, rfl⟩

end Sampler

end SchemaSampler
