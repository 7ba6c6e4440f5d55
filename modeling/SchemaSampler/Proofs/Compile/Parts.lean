import SchemaSampler.Proofs.Compile.Objects

/-!
# Parts of nodes

The inner schemas of a node are nodes again. What a negation negates is not one of them, because a
negation is checked as JSON and never compiled.

Results:
1. `Node.induction`: induction over inner nodes.
2. `Compiler.compile_list`, `compile_tuple` and the other forms: a node is compiled by compiling
   its inner nodes first.
3. `Compiler.compile_part`: a node that compiles has parts that compile.
-/

namespace SchemaSampler

namespace Node

/-! ## Inner nodes -/

/-- The first node is an inner schema of the second one. -/
inductive Inside : Node → Node → Prop
  | items {items : Node} {bounds : ListBounds} : Inside items (.list items bounds)
  | component {items : List Node} {item : Node} : item ∈ items → Inside item (.tuple items)
  | property {spec : ObjectSpec Node} {entry : String × Node} : entry ∈ spec.properties →
      Inside entry.2 (.object spec)
  | additional {spec : ObjectSpec Node} {node : Node} : spec.additional = .schema node →
      Inside node (.object spec)
  | patterned {spec : ObjectSpec Node} {entry : String × Node} : entry ∈ spec.patterns →
      Inside entry.2 (.object spec)
  | anyOf {members : List Node} {member : Node} : member ∈ members → Inside member (.anyOf members)
  | oneOf {members : List Node} {member : Node} : member ∈ members → Inside member (.oneOf members)
  | allOf {members : List Node} {member : Node} : member ∈ members → Inside member (.allOf members)

theorem sizeOf_entry_lt {entries : List (String × Node)} {entry : String × Node}
    (present : entry ∈ entries) : sizeOf entry.2 < sizeOf entries := by
  have listed := List.sizeOf_lt_of_mem present
  obtain ⟨name, node⟩ := entry
  simp only [Prod.mk.sizeOf_spec] at listed
  dsimp only
  omega

theorem Inside.sizeOf_lt {inner node : Node} (inside : inner.Inside node) :
    sizeOf inner < sizeOf node := by
  cases inside with
  | items =>
    simp only [list.sizeOf_spec]
    omega
  | component present | anyOf present | oneOf present | allOf present =>
    have listed := List.sizeOf_lt_of_mem present
    simp only [tuple.sizeOf_spec, anyOf.sizeOf_spec, oneOf.sizeOf_spec, allOf.sizeOf_spec]
    omega
  | @property spec entry present =>
    have listed := sizeOf_entry_lt present
    obtain ⟨properties, required, additional, patterns, dependencies, further⟩ := spec
    simp only [object.sizeOf_spec, ObjectSpec.mk.sizeOf_spec]
    dsimp only at listed
    omega
  | @patterned spec entry present =>
    have listed := sizeOf_entry_lt present
    obtain ⟨properties, required, additional, patterns, dependencies, further⟩ := spec
    simp only [object.sizeOf_spec, ObjectSpec.mk.sizeOf_spec]
    dsimp only at listed
    omega
  | @additional spec _ same =>
    obtain ⟨properties, required, additional, patterns, dependencies, further⟩ := spec
    cases same
    simp only [object.sizeOf_spec, ObjectSpec.mk.sizeOf_spec, Additional.schema.sizeOf_spec]
    omega

/-- What holds of a node if it holds of its inner nodes holds of every node. -/
@[elab_as_elim]
theorem induction {motive : Node → Prop}
    (step : ∀ node, (∀ inner, inner.Inside node → motive inner) → motive node) (node : Node) :
    motive node :=
  (measure sizeOf).wf.induction node fun outer smaller =>
    step outer fun inner inside => smaller inner inside.sizeOf_lt

/-- The node itself, its inner nodes, theirs and so on. -/
def Part (part node : Node) : Prop := Relation.ReflTransGen Inside part node

theorem Part.self (node : Node) : node.Part node := Relation.ReflTransGen.refl

/-- An inner node of a part is a part. -/
theorem Part.inner {inner part node : Node} (inside : inner.Inside part) (below : part.Part node) :
    inner.Part node := .head inside below

/-- A part is the node itself or a part of an inner node. -/
theorem Part.cases {part node : Node} (below : part.Part node) :
    part = node ∨ ∃ inner, inner.Inside node ∧ part.Part inner := by
  obtain rfl | ⟨inner, deeper, inside⟩ := Relation.ReflTransGen.cases_tail below
  · exact .inl rfl
  · exact .inr ⟨inner, inside, deeper⟩

/-- The node has no inner schemas because of its form. -/
def IsLeaf : Node → Prop
  | .list _ _ | .tuple _ | .object _ | .anyOf _ | .oneOf _ | .allOf _ => False
  | _ => True

end Node

/-- The node stands in the root or in a definition, and not under a negation. -/
def Document.Part (node : Node) (document : Document) : Prop :=
  node.Part document.root ∨ ∃ entry ∈ document.definitions, node.Part entry.2

namespace Compiler

variable {compiler : Compiler}

/-! ## Compilation by inner nodes -/

/-- The compiled inner schemas of an object. -/
def parts (compiler : Compiler) (spec : ObjectSpec Node) : ObjectParts where
  properties := spec.properties.map fun entry => (entry.1, compiler.compile entry.2)
  required := spec.required
  additional := compiler.compileAdditional spec.additional
  patterns := spec.patterns.map fun entry => (entry.1, compiler.compile entry.2)
  dependencies := spec.dependencies

@[simp] theorem names_properties (compiler : Compiler) (spec : ObjectSpec Node) :
    Entries.names (compiler.parts spec).properties = Entries.names spec.properties :=
  List.map_map

@[simp] theorem names_patterns (compiler : Compiler) (spec : ObjectSpec Node) :
    Entries.names (compiler.parts spec).patterns = Entries.names spec.patterns :=
  List.map_map

theorem compile_object (compiler : Compiler) (spec : ObjectSpec Node) :
    compiler.compile (.object spec) = compiler.object (compiler.parts spec) := by
  rw [compile, compileSpec, compileEntries_eq_map, compileEntries_eq_map]
  rfl

theorem compile_list (compiler : Compiler) (items : Node) (bounds : ListBounds) :
    compiler.compile (.list items bounds) = compiler.compile items >>= compiler.list bounds := by
  rw [compile]
  cases compiler.compile items <;> rfl

theorem compileAll_eq_mapM (compiler : Compiler) (nodes : List Node) :
    compiler.compileAll nodes = nodes.mapM compiler.compile := by
  induction nodes with
  | nil => rfl
  | cons node rest ih =>
    rw [compileAll, List.mapM_cons, ← ih]
    cases compiler.compile node with
    | error error => rfl
    | ok generator => cases compiler.compileAll rest <;> rfl

theorem compile_tuple (compiler : Compiler) (items : List Node) :
    compiler.compile (.tuple items) =
      items.mapM compiler.compile >>= fun generators => .ok (.tuple generators) := by
  rw [compile, compileAll_eq_mapM]
  cases items.mapM compiler.compile <;> rfl

theorem compile_anyOf (compiler : Compiler) (members : List Node) :
    compiler.compile (.anyOf members) =
      members.mapM compiler.compile >>= alternative "structural.any_of" members := by
  rw [compile, compileAll_eq_mapM]
  cases members.mapM compiler.compile <;> rfl

theorem compile_oneOf (compiler : Compiler) (members : List Node) :
    compiler.compile (.oneOf members) =
      members.mapM compiler.compile >>= alternative "structural.one_of" members := by
  rw [compile, compileAll_eq_mapM]
  cases members.mapM compiler.compile <;> rfl

theorem compile_allOf (compiler : Compiler) (members : List Node) :
    compiler.compile (.allOf members) =
      members.mapM compiler.compile >>= fun generators => .ok (compiler.merged generators) := by
  rw [compile, compileAll_eq_mapM]
  cases members.mapM compiler.compile <;> rfl

theorem compile_reference (compiler : Compiler) (pointer : String) :
    compiler.compile (.reference pointer) =
      compiler.binder.resolve pointer >>= fun slot => .ok (.reference pointer slot) := by
  rw [compile]
  cases compiler.binder.resolve pointer <;> rfl

/-! ## Parts of what compiles -/

theorem exists_compile_of_mapM {nodes : List Node} {generators : List Generator}
    (compiled : nodes.mapM compiler.compile = .ok generators) {node : Node} (present : node ∈ nodes) :
    ∃ generator, compiler.compile node = .ok generator := by
  have each := Except.mapM_eq_ok compiled
  obtain ⟨generator, -, same⟩ := Generator.exists_left_of_mem each.flip present
  exact ⟨generator, same⟩

theorem compile_inside {inner node : Node} (inside : inner.Inside node) {generator : Generator}
    (compiled : compiler.compile node = .ok generator) :
    ∃ generator, compiler.compile inner = .ok generator := by
  cases inside with
  | items =>
    rw [compile_list] at compiled
    obtain ⟨items, own, -⟩ := Except.bind_eq_ok.mp compiled
    exact ⟨items, own⟩
  | component present =>
    rw [compile_tuple] at compiled
    obtain ⟨generators, all, -⟩ := Except.bind_eq_ok.mp compiled
    exact exists_compile_of_mapM all present
  | anyOf present =>
    rw [compile_anyOf] at compiled
    obtain ⟨generators, all, -⟩ := Except.bind_eq_ok.mp compiled
    exact exists_compile_of_mapM all present
  | oneOf present =>
    rw [compile_oneOf] at compiled
    obtain ⟨generators, all, -⟩ := Except.bind_eq_ok.mp compiled
    exact exists_compile_of_mapM all present
  | allOf present =>
    rw [compile_allOf] at compiled
    obtain ⟨generators, all, -⟩ := Except.bind_eq_ok.mp compiled
    exact exists_compile_of_mapM all present
  | @property spec entry present =>
    rw [compile_object] at compiled
    obtain ⟨pieces, built, -⟩ := object_eq_ok compiled
    have listed : (entry.1, compiler.compile entry.2) ∈ (compiler.parts spec).properties :=
      List.mem_map_of_mem present
    rw [allCompiled_eq_ok built.declared] at listed
    obtain ⟨declared, -, same⟩ := List.mem_map.mp listed
    exact ⟨declared.2, (Prod.mk.inj same).2.symm⟩
  | @patterned spec entry present =>
    rw [compile_object] at compiled
    obtain ⟨pieces, built, -⟩ := object_eq_ok compiled
    have listed : (entry.1, compiler.compile entry.2) ∈ (compiler.parts spec).patterns :=
      List.mem_map_of_mem present
    exact (ObjectParts.exists_ok_of_groups built.groups listed).2
  | @additional spec _ same =>
    rw [compile_object] at compiled
    obtain ⟨pieces, built, -⟩ := object_eq_ok compiled
    have source : (compiler.parts spec).additional = some (compiler.compile inner) := by
      show compiler.compileAdditional spec.additional = _
      rw [same]
      rfl
    rw [optionally_eq_ok built.additional] at source
    obtain ⟨values, -, same⟩ := Option.map_eq_some_iff.mp source
    exact ⟨values, same.symm⟩

/-- A node compiles only if all its parts do. -/
theorem compile_part {part node : Node} (below : part.Part node) {generator : Generator}
    (compiled : compiler.compile node = .ok generator) :
    ∃ generator, compiler.compile part = .ok generator := by
  induction below using Relation.ReflTransGen.head_induction_on with
  | refl => exact ⟨generator, compiled⟩
  | head inside _ ih =>
    obtain ⟨_, outer⟩ := ih
    exact compile_inside inside outer

end Compiler

end SchemaSampler
