import SchemaSampler.Proofs.Compile.Results
import SchemaSampler.Proofs.Validity.Fragment

/-!
# Nodes of the fragment

Reading and classifying a schema of the fragment gives the node that its keywords spell out. The
statements hold of classification at any depth, so none of them counts the levels below.

Results:
1. `read_arrayMembers`, `read_members` and the other forms: the keywords of a schema.
2. `classify_array`, `classify_record` and the other forms: its node.
-/

namespace SchemaSampler

namespace Schema

open Keywords

/-! ## Reading keywords -/

theorem ofName?_name (keyword : Keyword) : Keyword.ofName? keyword.name = some keyword := by
  cases keyword <;> rfl

theorem put_of_ne_null {keywords : Keywords} {value : Json} (present : value ≠ .null)
    (keyword : Keyword) : keywords.put keyword value = keywords.set value keyword := by
  cases value with
  | null => exact absurd rfl present
  | _ => rfl

theorem readNatural_naturalJson (count : Nat) : readNatural (naturalJson count) = .ok count := by
  show (if (count : Int) < 0 then Except.error (.negative count) else .ok (count : Int).toNat) = _
  rw [if_neg (Int.not_lt.mpr (Int.natCast_nonneg count)), Int.toNat_natCast]

theorem readTexts_strings (names : List String) : readTexts (Json.strings names) = .ok names := by
  show (names.map Json.str).mapM readText = .ok names
  induction names with
  | nil => rfl
  | cons name rest ih =>
    rw [List.map_cons, List.mapM_cons, ih]
    rfl

/-- An optional keyword is read as it is. -/
theorem putMembers_optional {α : Type} {keywords : Keywords} {rest : List (String × Json)}
    (keyword : Keyword) (write : α → Json) (update : Option α → Keywords) (value : Option α)
    (missing : update none = keywords)
    (taken : ∀ inner, value = some inner →
      keywords.put keyword (write inner) = .ok (update (some inner))) :
    putMembers keywords (optional keyword write value ++ rest) = putMembers (update value) rest := by
  cases value with
  | none => rw [missing]; rfl
  | some inner =>
    show putMembers keywords ((keyword.name, write inner) :: rest) = _
    rw [putMembers, ofName?_name]
    dsimp only
    rw [taken inner rfl]

variable {definitions : Option (Entries Json)}

theorem read_arrayMembers {items : Option Json} {most least : Option Nat}
    (present : ∀ schema, items = some schema → schema ≠ .null) :
    Keywords.read (.obj (arrayMembers definitions items most least)) = .ok
      { type := some (.single "array"), definitions, items, maxItems := most, minItems := least } := by
  show putMembers {} (arrayMembers definitions items most least) = _
  unfold arrayMembers
  refine (putMembers_optional .definitions .obj (fun definitions => { definitions }) definitions rfl
    fun _ _ => rfl).trans ?_
  refine (putMembers_optional .items id (fun items => { definitions, items }) items rfl
    fun schema given => put_of_ne_null (present schema given) .items).trans ?_
  refine (putMembers_optional .maxItems naturalJson (fun maxItems =>
    { definitions, items, maxItems }) most rfl fun count _ => ?_).trans ?_
  · show (readNatural (naturalJson count) >>= _) = _
    rw [readNatural_naturalJson]
    rfl
  refine (putMembers_optional .minItems naturalJson (fun minItems =>
    { definitions, items, maxItems := most, minItems }) least rfl fun count _ => ?_).trans rfl
  show (readNatural (naturalJson count) >>= _) = _
  rw [readNatural_naturalJson]
  rfl

theorem read_members {keywords : RecordKeywords}
    (present : ∀ schema, keywords.additional = some schema → schema ≠ .null) :
    Keywords.read (.obj keywords.members) = .ok
      { type := some (.single "object")
        additionalProperties := keywords.additional
        definitions := keywords.definitions
        dependencies := keywords.dependencies.map fun lists =>
          lists.map fun entry => (entry.1, Json.strings entry.2)
        properties := keywords.properties
        required := keywords.required } := by
  obtain ⟨additionalProperties, definitions, dependencies, properties, required⟩ := keywords
  show putMembers {} _ = _
  unfold RecordKeywords.members
  refine (putMembers_optional .additionalProperties id (fun additionalProperties =>
    { additionalProperties }) additionalProperties rfl
    fun schema given => put_of_ne_null (present schema given) .additionalProperties).trans ?_
  refine (putMembers_optional .definitions .obj (fun definitions =>
    { additionalProperties, definitions }) definitions rfl fun _ _ => rfl).trans ?_
  refine (putMembers_optional .dependencies RecordKeywords.dependencyLists (fun dependencies =>
    { additionalProperties, definitions, dependencies := dependencies.map fun lists =>
        lists.map fun entry => (entry.1, Json.strings entry.2) })
    dependencies rfl fun _ _ => rfl).trans ?_
  refine (putMembers_optional .properties .obj (fun properties =>
    { additionalProperties, definitions, properties, dependencies := dependencies.map fun lists =>
        lists.map fun entry => (entry.1, Json.strings entry.2) })
    properties rfl fun _ _ => rfl).trans ?_
  refine (putMembers_optional .required Json.strings (fun required =>
    { additionalProperties, definitions, properties, required
      dependencies := dependencies.map fun lists =>
        lists.map fun entry => (entry.1, Json.strings entry.2) }) required rfl ?_).trans rfl
  intro names _
  show (readTexts (Json.strings names) >>= _) = _
  rw [readTexts_strings]
  rfl

/-- One keyword behind definitions. -/
theorem read_after_definitions (keyword : Keyword) {value : Json} {keywords : Keywords}
    (taken : Keywords.put { definitions } keyword value = .ok keywords) :
    Keywords.read (.obj (optional .definitions .obj definitions ++ [(keyword.name, value)])) =
      .ok keywords := by
  show putMembers {} _ = _
  rw [putMembers_optional .definitions .obj (fun definitions => { definitions }) definitions rfl
      fun _ _ => rfl, putMembers, ofName?_name]
  dsimp only
  rw [taken]
  rfl

/-- One keyword in front of definitions. -/
theorem read_before_definitions (keyword : Keyword) {value : Json} {keywords : Keywords}
    (taken : Keywords.put {} keyword value = .ok keywords) (undefined : keywords.definitions = none) :
    Keywords.read (.obj ((keyword.name, value) :: optional .definitions .obj definitions)) =
      .ok { keywords with definitions } := by
  show putMembers {} _ = _
  rw [putMembers, ofName?_name]
  dsimp only
  rw [taken]
  dsimp only
  rw [← List.append_nil (optional _ _ _),
    putMembers_optional .definitions .obj (fun definitions => { keywords with definitions })
      definitions (by rw [← undefined]) fun _ _ => rfl]
  rfl

/-! ## Classification -/

section Classification

variable {depth : Nat} {node : Node}

/-- A schema object is classified by its keywords. -/
theorem classify_of_read {members : List (String × Json)} {keywords : Keywords}
    (read : Keywords.read (.obj members) = .ok keywords)
    (classified : Node.classifyWithin depth (.obj members) = .ok node) :
    ∃ below, Node.classifyKeywords (Node.classifyWithin below) keywords (.obj members) =
      .ok node := by
  cases depth with
  | zero => cases classified
  | succ below =>
    refine ⟨below, ?_⟩
    rw [Node.classifyWithin, Node.classifyLayer, read] at classified
    exact classified

/-- The node of a type without further keywords. -/
def scalarNode : TypeName → Node
  | .null => .null
  | .boolean => .boolean
  | .integer => .integer {}
  | .number => .number {}
  | .string => .text {}
  | .array | .object => .anything

theorem classify_scalar {type : TypeName} (notArray : type ≠ .array) (notObject : type ≠ .object)
    (classified : Node.classifyWithin depth (.obj (optional .definitions .obj definitions ++
      [("type", .str type.name)])) = .ok node) : node = scalarNode type := by
  have taken : Keywords.put { definitions } .type (.str type.name) =
      .ok { definitions, type := some (.single type.name) } := rfl
  obtain ⟨below, classified⟩ := classify_of_read (read_after_definitions .type taken) classified
  cases type with
  | array => exact absurd rfl notArray
  | object => exact absurd rfl notObject
  | _ => exact (Except.ok.inj classified).symm

theorem classify_constant {value : Json}
    (classified : Node.classifyWithin depth (.obj (("const", value) ::
      optional .definitions .obj definitions)) = .ok node) : node = .constant value := by
  have taken : Keywords.put {} .constant value = .ok { constant := some value } := by
    cases value <;> rfl
  obtain ⟨below, classified⟩ :=
    classify_of_read (read_before_definitions .constant taken rfl) classified
  exact (Except.ok.inj classified).symm

theorem classify_enumeration {values : List Json}
    (classified : Node.classifyWithin depth (.obj (optional .definitions .obj definitions ++
      [("enum", .arr values)])) = .ok node) : node = .enumeration .untyped values := by
  have taken : Keywords.put { definitions } .enumeration (.arr values) =
      .ok { definitions, enumeration := some values } := rfl
  obtain ⟨below, classified⟩ :=
    classify_of_read (read_after_definitions .enumeration taken) classified
  have enumerated : Node.enumerated .untyped values _ = .ok node := classified
  unfold Node.enumerated at enumerated
  split at enumerated
  · cases enumerated
  · exact (Except.ok.inj enumerated).symm

theorem classify_reference {pointer : String}
    (classified : Node.classifyWithin depth (.obj (("$ref", .str pointer) ::
      optional .definitions .obj definitions)) = .ok node) : node = .reference pointer := by
  have taken : Keywords.put {} .reference (.str pointer) = .ok { reference := some pointer } := rfl
  obtain ⟨below, classified⟩ :=
    classify_of_read (read_before_definitions .reference taken rfl) classified
  exact (Except.ok.inj classified).symm

theorem classify_negation {negated : Json} (present : negated ≠ .null)
    (classified : Node.classifyWithin depth (.obj (optional .definitions .obj definitions ++
      [("not", negated)])) = .ok node) : ∃ inner, node = .negation inner negated := by
  have taken : Keywords.put { definitions } .negation negated =
      .ok { definitions, negation := some negated } := put_of_ne_null present .negation
  obtain ⟨below, classified⟩ := classify_of_read (read_after_definitions .negation taken) classified
  obtain ⟨inner, -, same⟩ := Except.bind_eq_ok.mp
    (show (Node.classifyWithin below negated >>= fun inner => pure (.negation inner negated)) =
      .ok node from classified)
  exact ⟨inner, (Except.ok.inj same).symm⟩

theorem classifyMembers_eq_ok {keyword : Keyword} {source : Json} {schemas : List Json}
    {nodes : List Node}
    (classified : Node.classifyMembers (Node.classifyWithin depth) keyword source schemas =
      .ok nodes) :
    List.Forall₂ (fun schema node => Node.classifyWithin depth schema = .ok node) schemas nodes := by
  unfold Node.classifyMembers at classified
  split at classified
  · cases classified
  · exact Except.mapM_eq_ok classified

theorem classify_anyOf {schemas : List Json}
    (classified : Node.classifyWithin depth (.obj (("anyOf", .arr schemas) ::
      optional .definitions .obj definitions)) = .ok node) :
    ∃ below nodes, node = .anyOf nodes ∧
      List.Forall₂ (fun schema node => Node.classifyWithin below schema = .ok node)
        schemas nodes := by
  have taken : Keywords.put {} .anyOf (.arr schemas) = .ok { anyOf := some schemas } := rfl
  obtain ⟨below, classified⟩ := classify_of_read (read_before_definitions .anyOf taken rfl) classified
  obtain ⟨nodes, members, same⟩ := Except.bind_eq_ok.mp
    (show (Node.classifyMembers (Node.classifyWithin below) .anyOf _ schemas >>= fun nodes =>
      pure (.anyOf nodes)) = .ok node from classified)
  exact ⟨below, nodes, (Except.ok.inj same).symm, classifyMembers_eq_ok members⟩

theorem classify_allOf {schemas : List Json}
    (classified : Node.classifyWithin depth (.obj (("allOf", .arr schemas) ::
      optional .definitions .obj definitions)) = .ok node) :
    ∃ below nodes, node = .allOf nodes ∧
      List.Forall₂ (fun schema node => Node.classifyWithin below schema = .ok node)
        schemas nodes := by
  have taken : Keywords.put {} .allOf (.arr schemas) = .ok { allOf := some schemas } := rfl
  obtain ⟨below, classified⟩ := classify_of_read (read_before_definitions .allOf taken rfl) classified
  obtain ⟨nodes, members, same⟩ := Except.bind_eq_ok.mp
    (show (Node.classifyMembers (Node.classifyWithin below) .allOf _ schemas >>= fun nodes =>
      pure (.allOf nodes)) = .ok node from classified)
  exact ⟨below, nodes, (Except.ok.inj same).symm, classifyMembers_eq_ok members⟩

theorem classify_array {items : Option Json} {most least : Option Nat}
    (present : ∀ schema, items = some schema → schema ≠ .null)
    (single : ∀ places, items ≠ some (.arr places))
    (classified : Node.classifyWithin depth (.obj (arrayMembers definitions items most least)) =
      .ok node) :
    ∃ below inner, node = .list inner ⟨least, most, false⟩ ∧
      ∀ schema, items = some schema → Node.classifyWithin below schema = .ok inner := by
  obtain ⟨below, classified⟩ := classify_of_read (read_arrayMembers present) classified
  cases items with
  | none => exact ⟨below, .anything, (Except.ok.inj classified).symm, nofun⟩
  | some schema =>
    have list : (Node.classifyWithin below schema >>= fun inner =>
        pure (.list inner ⟨least, most, false⟩)) = .ok node := by
      cases schema with
      | arr places => exact absurd rfl (single places)
      | _ => exact classified
    obtain ⟨inner, own, same⟩ := Except.bind_eq_ok.mp list
    refine ⟨below, inner, (Except.ok.inj same).symm, fun other given => ?_⟩
    cases given
    exact own

theorem classify_tuple {items : List Json}
    (classified : Node.classifyWithin depth (.obj (arrayMembers definitions (some (.arr items))
      none none)) = .ok node) :
    ∃ below nodes, node = .tuple nodes ∧
      List.Forall₂ (fun schema node => Node.classifyWithin below schema = .ok node)
        items nodes := by
  have present : ∀ schema, some (Json.arr items) = some schema → schema ≠ .null := by
    rintro schema ⟨⟩ ⟨⟩
  obtain ⟨below, classified⟩ := classify_of_read (read_arrayMembers present) classified
  obtain ⟨nodes, inner, same⟩ := Except.bind_eq_ok.mp
    (show (items.mapM (Node.classifyWithin below) >>= fun nodes => pure (.tuple nodes)) =
      .ok node from classified)
  exact ⟨below, nodes, (Except.ok.inj same).symm, Except.mapM_eq_ok inner⟩

theorem listDependencies_dependencyLists (lists : Entries (List String)) :
    Node.listDependencies (lists.map fun entry => (entry.1, Json.strings entry.2)) = lists := by
  have names (labels : List String) : Node.dependencyNames (Json.strings labels) = some labels := by
    simp [Node.dependencyNames, Json.strings, List.filterMap_map]
  induction lists with
  | nil => rfl
  | cons entry rest ih =>
    unfold Node.listDependencies at ih ⊢
    rw [List.map_cons, List.filterMap_cons]
    dsimp only
    rw [names]
    exact congrArg (entry :: ·) ih

theorem classify_record {keywords : RecordKeywords}
    (present : ∀ schema, keywords.additional = some schema → schema ≠ .null)
    (classified : Node.classifyWithin depth (.obj keywords.members) = .ok node) :
    ∃ below properties additional schemaDependencies,
      node = .object ⟨properties, keywords.wanted, additional, [], keywords.between,
        schemaDependencies⟩ ∧
      (keywords.declared.map fun entry => (entry.1, Node.classifyWithin below entry.2)) =
        properties.map (fun entry => (entry.1, .ok entry.2)) ∧
      Node.classifyAdditional (Node.classifyWithin below) keywords.additional = .ok additional := by
  obtain ⟨below, classified⟩ := classify_of_read (read_members present) classified
  obtain ⟨properties, declared, classified⟩ := Except.bind_eq_ok.mp classified
  obtain ⟨patterns, unpatterned, classified⟩ := Except.bind_eq_ok.mp classified
  obtain ⟨additional, further, same⟩ := Except.bind_eq_ok.mp classified
  -- No patterns are stated, so their classification is that of an empty list.
  cases unpatterned
  let listed := (keywords.dependencies.map fun lists =>
    lists.map fun entry => (entry.1, Json.strings entry.2)).getD []
  refine ⟨below, properties, additional, Node.schemaDependencyNames listed, ?_,
    Except.entriesMapM_eq_ok declared, further⟩
  have between : Node.listDependencies listed = keywords.between := by
    dsimp only [listed]
    unfold RecordKeywords.between
    cases keywords.dependencies with
    | none => rfl
    | some lists => exact listDependencies_dependencyLists lists
  rw [← between]
  exact (Except.ok.inj same).symm

end Classification

end Schema

end SchemaSampler
