import SchemaSampler.Proofs.Schema.Normalized

/-!
# Absent keywords

A keyword with the value `null` states nothing, `const` excepted, so classification takes it for an
absent one. A document looks its definitions up among the members of the schema as well, and there a
`null` is a value like any other: it is no object, and the document is refused.

Results:
1. `Keywords.stated_insert_null`: a `null` states nothing.
2. `Node.classify_agrees_of_stated`: schemas that state the same are classified alike.
3. `Document.parse_insert_null`: the document of a schema with one more `null`.
4. `Document.null_definitions_refused`: for `definitions` it is not that of the schema.
-/

namespace SchemaSampler

namespace Keywords

theorem statement?_null {keyword : Keyword} (other : keyword ≠ .constant) :
    statement? (keyword.name, .null) = none := by
  have ignored : keyword.counts .null = false := beq_false_of_ne other
  simp [statement?, Schema.ofName?_name, ignored]

/-- A `null` states nothing, unless it is a constant. -/
theorem stated_insert_null {keyword : Keyword} (other : keyword ≠ .constant)
    {members : Entries Json} (absent : keyword.name ∉ Entries.names members) :
    stated (Entries.insert keyword.name .null members) = stated members := by
  have unstated (rest : Entries Json) : stated ((keyword.name, .null) :: rest) = stated rest :=
    List.filterMap_cons_none (statement?_null other)
  induction members with
  | nil => exact unstated []
  | cons member rest ih =>
    obtain ⟨name, value⟩ := member
    rw [Entries.names, List.map_cons, List.mem_cons, not_or] at absent
    rw [Entries.insert]
    split
    · exact unstated _
    · rw [if_neg absent.1, stated, stated, List.filterMap_cons, List.filterMap_cons]
      have later := ih absent.2
      unfold stated at later
      rw [later]

theorem read_congr {members others : Entries Json} (same : stated others = stated members) :
    Keywords.read (.obj others) = Keywords.read (.obj members) := by
  show putMembers {} others = putMembers {} members
  rw [putMembers_eq_takeAll, putMembers_eq_takeAll, same]

end Keywords

/-- Schemas that state the same are classified alike, also where their keywords cannot be read. -/
theorem Node.classify_agrees_of_stated {members others : Entries Json}
    (same : Keywords.stated others = Keywords.stated members) :
    Agrees (classify (.obj others)) (classify (.obj members)) := by
  have alike := Keywords.read_congr same
  cases read : Keywords.read (.obj members) with
  | ok keywords => exact classify_agrees_of_read read (alike.trans read)
  | error fault =>
    have refused {members : Entries Json} (read : Keywords.read (.obj members) = .error fault) :
        classify (.obj members) = fail (.illTyped fault) (.obj members) := by
      rw [classify, classifyWithin, classifyLayer, read]
    rw [refused read, refused (alike.trans read)]
    rfl

namespace Document

variable {members : Entries Json} {keyword : Keyword}

theorem definitionsOf_insert (other : keyword ≠ .definitions) (value : Json) :
    definitionsOf (.obj (Entries.insert keyword.name value members)) =
      definitionsOf (.obj members) := by
  have different : Keyword.definitions.name ≠ keyword.name := fun same =>
    other (Keyword.name_injective same.symm)
  show (Entries.get? _ Keyword.definitions.name).getD _ = (Entries.get? _ _).getD _
  rw [Entries.get?_insert, if_neg different]
  rfl

theorem definitionsOf_insert_definitions (value : Json) :
    definitionsOf (.obj (Entries.insert Keyword.definitions.name value members)) = value := by
  show (Entries.get? _ Keyword.definitions.name).getD _ = _
  rw [Entries.get?_insert, if_pos rfl]
  rfl

theorem definitionsOf_of_absent (absent : Keyword.definitions.name ∉ Entries.names members) :
    definitionsOf (.obj members) = .obj [] := by
  show (Entries.get? _ Keyword.definitions.name).getD _ = _
  rw [Entries.get?_eq_none_iff.mpr absent]
  rfl

/-- Without definitions a document is its root. -/
theorem parse_of_no_definitions {schema : Json} (none : definitionsOf schema = .obj []) :
    parse schema = (Node.classify schema).map fun root => ⟨root, [], .obj []⟩ := by
  unfold parse
  rw [none]
  cases Node.classify schema <;> rfl

/-- Definitions that are no object are refused once the root has been classified. -/
theorem parse_of_null_definitions {schema : Json} (none : definitionsOf schema = .null) :
    parse schema = Node.classify schema >>= fun _ => Node.fail .definitionsNotObject .null := by
  unfold parse
  rw [none]

/-- A keyword that a schema does not have may be given the value `null`, and the document stays the
same, or fails for the same reason as before. The exceptions are `const`, for which `null` is a
value, and `definitions`: there a document that was parsed is refused, with the `null` to blame. -/
theorem parse_insert_null (other : keyword ≠ .constant)
    (absent : keyword.name ∉ Entries.names members) :
    (keyword ≠ .definitions →
      Node.Agrees (parse (.obj (Entries.insert keyword.name .null members)))
        (parse (.obj members))) ∧
    (keyword = .definitions →
      (∀ document, parse (.obj members) = .ok document →
        parse (.obj (Entries.insert keyword.name .null members)) =
          .error ⟨.definitionsNotObject, .null⟩) ∧
      ∀ fault, parse (.obj members) = .error fault →
        ∃ node, parse (.obj (Entries.insert keyword.name .null members)) =
          .error ⟨fault.reason, node⟩) := by
  have root := Node.classify_agrees_of_stated (Keywords.stated_insert_null other absent)
  refine ⟨fun ordinary => ?_, ?_⟩
  · unfold parse
    rw [definitionsOf_insert ordinary]
    exact (Node.agrees_layerRelation .null .null).bind root fun _ => rfl
  · rintro rfl
    rw [parse_of_no_definitions (definitionsOf_of_absent absent),
      parse_of_null_definitions (definitionsOf_insert_definitions .null)]
    cases own : Node.classify (.obj members) with
    | ok node =>
      cases further : Node.classify
          (.obj (Entries.insert Keyword.definitions.name .null members)) with
      | ok => exact ⟨fun _ _ => rfl, nofun⟩
      | error => exact absurd (own ▸ further ▸ root) nofun
    | error fault =>
      cases further : Node.classify
          (.obj (Entries.insert Keyword.definitions.name .null members)) with
      | ok => exact absurd (own ▸ further ▸ root) nofun
      | error later =>
        have same : later.reason = fault.reason := Except.error.inj (own ▸ further ▸ root)
        refine ⟨nofun, fun _ failed => ⟨later.node, ?_⟩⟩
        cases failed
        rw [← same]
        rfl

/-- Integers with a bound that is `null` are the same document; with definitions that are `null`
they are none. -/
theorem integers_with_null :
    let members : Entries Json := [("type", .str "integer")]
    Keyword.minimum.name ∉ Entries.names members ∧
      Node.Agrees (parse (.obj (Entries.insert Keyword.minimum.name .null members)))
        (parse (.obj members)) ∧
      Keyword.definitions.name ∉ Entries.names members ∧
      parse (.obj members) = .ok ⟨.integer {}, [], .obj []⟩ ∧
      parse (.obj (Entries.insert Keyword.definitions.name .null members)) =
        .error ⟨.definitionsNotObject, .null⟩ := by
  intro members
  have noMinimum : Keyword.minimum.name ∉ Entries.names members := by decide
  have noDefinitions : Keyword.definitions.name ∉ Entries.names members := by decide
  have parsed : parse (.obj members) = .ok ⟨.integer {}, [], .obj []⟩ := rfl
  refine ⟨noMinimum, ?_, noDefinitions, parsed, ?_⟩
  · exact (parse_insert_null (by decide) noMinimum).1 (by decide)
  · exact ((parse_insert_null (by decide) noDefinitions).2 rfl).1 _ parsed

/-- The empty schema is a document, and it is none with definitions that are `null`: so the
exception of `definitions` is needed. -/
theorem null_definitions_refused :
    Keyword.definitions ≠ .constant ∧
      Keyword.definitions.name ∉ Entries.names ([] : Entries Json) ∧
      parse (.obj []) = .ok ⟨.anything, [], .obj []⟩ ∧
      ¬ Node.Agrees (parse (.obj (Entries.insert Keyword.definitions.name .null [])))
        (parse (.obj [])) :=
  ⟨by decide, by decide, rfl, nofun⟩

end Document

end SchemaSampler
