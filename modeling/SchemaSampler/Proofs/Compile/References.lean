import SchemaSampler.Proofs.Compile.Agreement
import SchemaSampler.Proofs.Compile.Leaves
import SchemaSampler.Proofs.Compile.Order

/-!
# References of compiled documents

References come from reference nodes and keep what their pointers resolved to, wherever the node
stands. So compiling against other slots only renumbers a generator, and in a compiled document
every reference leads to the body of its definition.

Results:
1. `Compiler.compile_renumber`: a node compiled against slots of other numbers.
2. `Document.references_reach_definitions`: slots, references and draws of a compiled document.
-/

namespace SchemaSampler

namespace Compiler

variable {compiler twin : Compiler} {number : Nat → Nat} {resolves : String → Nat → Prop}

/-! ## Renumbered compilation -/

/-- The second generator is the first one with other numbers of slots, and the pointers of the
first one resolve to the slots in it. -/
structure Renumbers (number : Nat → Nat) (resolves : String → Nat → Prop)
    (generator other : Generator) : Prop where
  renumbered : other = generator.renumber number
  refers : ∀ pointer slot, generator.Refers pointer slot → resolves pointer slot

theorem renumbers_of_no_reference {generator : Generator}
    (alone : ∀ pointer slot, ¬ generator.Refers pointer slot) :
    Renumbers number resolves generator generator :=
  ⟨(Generator.renumber_eq_self fun _ _ refers => absurd refers (alone _ _)).symm,
    fun _ _ refers => absurd refers (alone _ _)⟩

theorem arbitrary_not_refers (compiler : Compiler) (pointer : String) (slot : Nat) :
    ¬ compiler.arbitrary.Refers pointer slot := nofun

theorem IsKeys.not_refers {keys : Generator} (text : IsKeys keys) (pointer : String) (slot : Nat) :
    ¬ keys.Refers pointer slot := by
  intro refers
  cases refers <;> exact text

theorem renumbers_list {items others : List Generator}
    (each : List.Forall₂ (Renumbers number resolves) items others) :
    others = Generator.renumberAll number items ∧
      ∀ item ∈ items, ∀ pointer slot, item.Refers pointer slot → resolves pointer slot := by
  induction each with
  | nil => exact ⟨rfl, nofun⟩
  | cons first _ ih =>
    refine ⟨by rw [Generator.renumberAll, first.renumbered, ih.1], fun item present => ?_⟩
    rcases List.mem_cons.mp present with rfl | later
    · exact first.refers
    · exact ih.2 item later

theorem renumbers_fields {fields others : List (String × Generator)}
    (each : List.Forall₂ (Named (Renumbers number resolves)) fields others) :
    others = Generator.renumberFields number fields ∧
      ∀ field ∈ fields, ∀ pointer slot, field.2.Refers pointer slot → resolves pointer slot := by
  induction each with
  | nil => exact ⟨rfl, nofun⟩
  | @cons field other _ _ first _ ih =>
    obtain ⟨name, generator⟩ := field
    obtain ⟨otherName, otherGenerator⟩ := other
    obtain ⟨rfl, renumbered, refers⟩ := first
    dsimp only at renumbered refers
    refine ⟨by rw [Generator.renumberFields, renumbered, ih.1], fun field present => ?_⟩
    rcases List.mem_cons.mp present with rfl | later
    · exact refers
    · exact ih.2 field later

theorem record_renumbers {fields others : List (String × Generator)}
    (each : List.Forall₂ (Named (Renumbers number resolves)) fields others) :
    Renumbers number resolves (.record fields) (.record others) := by
  obtain ⟨same, resolved⟩ := renumbers_fields each
  refine ⟨by rw [same, Generator.renumber], fun pointer slot refers => ?_⟩
  cases refers with
  | field present refers => exact resolved _ present pointer slot refers

theorem choice_renumbers {label : String} {alternatives others : List Generator}
    {minimal : Option Nat} (each : List.Forall₂ (Renumbers number resolves) alternatives others) :
    Renumbers number resolves (.choice label alternatives minimal) (.choice label others minimal) := by
  obtain ⟨same, resolved⟩ := renumbers_list each
  refine ⟨by rw [same, Generator.renumber], fun pointer slot refers => ?_⟩
  cases refers with
  | alternative present refers => exact resolved _ present pointer slot refers

theorem tuple_renumbers {items others : List Generator}
    (each : List.Forall₂ (Renumbers number resolves) items others) :
    Renumbers number resolves (.tuple items) (.tuple others) := by
  obtain ⟨same, resolved⟩ := renumbers_list each
  refine ⟨by rw [same, Generator.renumber], fun pointer slot refers => ?_⟩
  cases refers with
  | component present refers => exact resolved _ present pointer slot refers

theorem array_renumbers {items others : Generator} {least most : Nat} {unique : Bool}
    (inner : Renumbers number resolves items others) :
    Renumbers number resolves (.array items least most unique) (.array others least most unique) := by
  refine ⟨by rw [inner.renumbered, Generator.renumber], fun pointer slot refers => ?_⟩
  cases refers with
  | items refers => exact inner.refers pointer slot refers

theorem dictionary_renumbers {keys values others : Generator} {maxEntries : Nat}
    {reserved : List String} {excluded : List Pattern} (text : IsKeys keys)
    (inner : Renumbers number resolves values others) :
    Renumbers number resolves (.dictionary keys values maxEntries reserved excluded)
      (.dictionary keys others maxEntries reserved excluded) := by
  have kept : keys.renumber number = keys :=
    Generator.renumber_eq_self fun _ _ refers => absurd refers (text.not_refers _ _)
  refine ⟨by rw [inner.renumbered, Generator.renumber, kept], fun pointer slot refers => ?_⟩
  cases refers with
  | keys refers => exact absurd refers (text.not_refers _ _)
  | values refers => exact inner.refers pointer slot refers

theorem basic_renumber {node : Node} (basic : node.IsBasic)
    (options : twin.options = compiler.options) :
    Except.Agree (Renumbers number resolves) (compiler.compile node) (twin.compile node) := by
  have same : twin.compile node = compiler.compile node :=
    compile_basic_eq basic (by rw [options])
  rw [same]
  exact Except.Agree.same fun generator built =>
    renumbers_of_no_reference (compile_isBasic basic built).not_refers

/-- Against slots of other numbers a node compiles to a renumbered generator. -/
theorem compile_renumber {root : Node} (options : twin.options = compiler.options)
    (registry : twin.registry = compiler.registry) (closures : compiler.registry.Closures)
    (references : ∀ pointer, Node.Part (.reference pointer) root →
      Except.Agree (fun slot other => other = number slot ∧ resolves pointer slot)
        (compiler.binder.resolve pointer) (twin.binder.resolve pointer))
    (negations : ∀ negated source, Node.Part (.negation negated source) root →
      twin.negation source = compiler.negation source) :
    Except.Agree (Renumbers number resolves) (compiler.compile root) (twin.compile root) := by
  have arbitrary : twin.arbitrary = compiler.arbitrary := by rw [Compiler.arbitrary, options]; rfl
  refine compile_agree {
    limits := by rw [options]
    leaf := fun node leaf below => ?_
    arbitrary := arbitrary.symm ▸ renumbers_of_no_reference compiler.arbitrary_not_refers
    array := array_renumbers
    tuple := tuple_renumbers
    choice := choice_renumbers
    merged := fun each => ?_
    record := fun _ _ _ _ _ shared keys =>
      shared.record options.symm record_renumbers dictionary_renumbers keys }
  · cases node with
    | reference pointer =>
      rw [compile_reference, compile_reference]
      refine (references pointer below).bind fun slot other _ moved => .ok ⟨?_, ?_⟩
      · rw [moved.1, Generator.renumber]
      · rintro _ _ ⟨⟩
        exact moved.2
    | negation negated source =>
      show Except.Agree _ (compiler.negation source) (twin.negation source)
      rw [negations negated source below]
      refine Except.Agree.same fun generator built => ?_
      obtain ⟨validator, -, rfl⟩ := negation_eq_ok built
      refine renumbers_of_no_reference fun pointer slot refers => ?_
      cases refers with
      | filter refers => exact compiler.arbitrary_not_refers pointer slot refers
    | custom name =>
      show Except.Agree _ (compiler.registry.find name) (twin.registry.find name)
      rw [registry]
      refine Except.Agree.same fun generator found => ?_
      obtain ⟨draw, rfl⟩ := find_eq_closure closures found
      refine renumbers_of_no_reference fun pointer slot refers => ?_
      cases refers
    | anything =>
      show Except.Agree _ (.ok compiler.arbitrary) (.ok twin.arbitrary)
      rw [arbitrary]
      exact .ok (renumbers_of_no_reference compiler.arbitrary_not_refers)
    | list | tuple | object | anyOf | oneOf | allOf => exact leaf.elim
    | null | boolean | constant | enumeration | integer | number | text =>
      exact basic_renumber trivial options
  · unfold merged
    rw [options]
    exact record_renumbers (.cons ⟨rfl, record_renumbers (memberFields_named each 0)⟩ .nil)

/-- What stands in a compiled node resolved against the slots it was compiled for. -/
theorem compile_refers {node : Node} {generator : Generator} (closures : compiler.registry.Closures)
    (compiled : compiler.compile node = .ok generator) {pointer : String} {slot : Nat}
    (refers : generator.Refers pointer slot) : compiler.binder.resolve pointer = .ok slot := by
  have agree : Except.Agree
      (Renumbers (fun slot => slot) fun pointer slot => compiler.binder.resolve pointer = .ok slot)
      (compiler.compile node) (compiler.compile node) :=
    compile_renumber rfl rfl closures
      (fun pointer _ => Except.Agree.same fun slot resolved => ⟨rfl, resolved⟩) fun _ _ _ => rfl
  rw [compiled] at agree
  cases agree with
  | ok renumbers => exact renumbers.refers pointer slot refers

end Compiler

/-! ## Documents -/

namespace Document

variable {document : Document} {options : Options} {registry : Registry} {slots : Slots}

theorem targets_lt {pointer : String} {slot : Nat} (targets : document.Targets pointer slot) :
    slot < document.definitions.length + 1 := by
  cases targets with
  | empty => exact Nat.succ_pos _
  | root => exact Nat.succ_pos _
  | definition _ _ _ _ found =>
    exact Nat.succ_lt_succ (List.getElem?_eq_some_iff.mp found).1

theorem body_refers (distinct : (Entries.names document.definitions).Nodup)
    (closures : registry.Closures) (compiled : document.slots options registry = .ok slots)
    {body : Generator} (present : body ∈ slots.bodies) {pointer : String} {slot : Nat}
    (refers : body.Refers pointer slot) : document.Targets pointer slot := by
  obtain ⟨root, bodies, own, all, rfl⟩ := (slots_eq_ok distinct).mp compiled
  have source : ∃ node, (document.compiler options registry).compile node = .ok body := by
    rcases List.mem_cons.mp present with rfl | later
    · exact ⟨document.root, own⟩
    · obtain ⟨node, -, same⟩ := Generator.exists_left_of_mem (Except.mapM_eq_ok all) later
      exact ⟨node, same⟩
  obtain ⟨node, gives⟩ := source
  exact targets_of_resolve distinct (Compiler.compile_refers closures gives refers)

theorem bodies_bound (distinct : (Entries.names document.definitions).Nodup)
    (closures : registry.Closures) (compiled : document.slots options registry = .ok slots) :
    ∀ body ∈ slots.bodies, body.Bound slots.bodies := by
  intro body present pointer slot refers
  have inside := targets_lt (body_refers distinct closures compiled present refers)
  obtain ⟨root, bodies, -, all, rfl⟩ := (slots_eq_ok distinct).mp compiled
  have counted := (Except.mapM_eq_ok all).length_eq
  rw [Entries.values, List.length_map] at counted
  rw [List.length_cons, ← counted]
  exact inside

/-- In a compiled document slot 0 has the root and the next slots the definitions in the order of
their names; every reference leads to the slot of the definition that its pointer names, so no draw
of any slot misses a definition. -/
theorem references_reach_definitions (sorted : Entries.Sorted document.definitions)
    (closures : registry.Closures) (compiled : document.slots options registry = .ok slots) :
    (∃ root, slots.bodies[0]? = some root ∧ slots.names[0]? = some "#" ∧
      (document.compiler options registry).compile document.root = .ok root) ∧
    slots.bodies.length = document.definitions.length + 1 ∧
    (∀ place name node, document.definitions[place]? = some (name, node) →
      ∃ body, slots.bodies[place + 1]? = some body ∧ slots.names[place + 1]? = some name ∧
        (document.compiler options registry).compile node = .ok body) ∧
    (∀ (slot : Nat) (body : Generator), slots.bodies[slot]? = some body → ∀ pointer target,
      body.Refers pointer target → document.Targets pointer target) ∧
    ∀ (slot : Nat) (body : Generator), slots.bodies[slot]? = some body → ∀ cursor name,
      (Generator.draw options slots.bodies body cursor).1 ≠ .error (.unboundDefinition name) := by
  have distinct := sorted.nodup_names
  have bound := bodies_bound distinct closures compiled
  have refers := @body_refers document options registry slots distinct closures compiled
  obtain ⟨root, bodies, own, all, rfl⟩ := (slots_eq_ok distinct).mp compiled
  have each := Except.mapM_eq_ok all
  have counted := each.length_eq
  rw [Entries.values, List.length_map] at counted
  refine ⟨⟨root, rfl, rfl, own⟩, by rw [List.length_cons, counted], ?_, ?_, ?_⟩
  · intro place name node found
    have value : (Entries.values document.definitions)[place]? = some node := by
      rw [Entries.values, List.getElem?_map, found]
      rfl
    obtain ⟨body, there, gives⟩ := Generator.exists_left_of_getElem? each.flip value
    refine ⟨body, there, ?_, gives⟩
    show (Entries.names document.definitions)[place]? = some name
    rw [Entries.names, List.getElem?_map, found]
    rfl
  · exact fun slot body found pointer target => refers (List.mem_of_getElem? found)
  · intro slot body found cursor name
    exact Generator.draw_bound bound (bound body (List.mem_of_getElem? found)) cursor name

/-- A list of one definition, which leads back to the list through another one. -/
def loopDocument : Document :=
  ⟨.list (.reference "#/definitions/b~1c") {},
    [("a", .reference "#"), ("b/c", .anyOf [.null, .reference "#/definitions/a"])], .obj []⟩

def loopSlots : Slots :=
  ⟨["#", "a", "b/c"],
    [.array (.reference "#/definitions/b~1c" 2) 0 8 false, .reference "#" 0,
      .choice "structural.any_of" [.constant .null, .reference "#/definitions/a" 1] (some 0)]⟩

theorem loop_references_reach_definitions :
    Entries.Sorted loopDocument.definitions ∧ Registry.Closures [] ∧
      loopDocument.slots {} [] = .ok loopSlots ∧
      loopDocument.Targets "#/definitions/b~1c" 2 ∧ loopDocument.Targets "#/definitions/a" 1 ∧
      ∀ cursor name, (Generator.draw {} loopSlots.bodies (.reference "#" 0) cursor).1 ≠
        .error (.unboundDefinition name) := by
  have sorted : Entries.Sorted loopDocument.definitions := by
    refine List.pairwise_cons.mpr ⟨fun entry present => ?_, List.pairwise_singleton _ _⟩
    rw [List.mem_singleton.mp present]
    decide
  have closures : Registry.Closures [] := nofun
  have compiled : loopDocument.slots {} [] = .ok loopSlots := by cbv
  obtain ⟨-, -, -, targets, drawn⟩ := references_reach_definitions sorted closures compiled
  exact ⟨sorted, closures, compiled, targets 0 _ rfl _ _ (.items .reference),
    targets 2 _ rfl _ _ (.alternative (.tail _ (.head _)) .reference), drawn 1 _ rfl⟩

end Document

end SchemaSampler
