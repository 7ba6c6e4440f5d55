import SchemaSampler.Proofs.Compile.Parts

/-!
# Alternatives of classified schemas

An enumeration without values and a combination without members have no shape. So a classified
schema offers an alternative wherever it has to, also deep inside, and a schema that lists several
types offers one for each.

Results:
1. `Except.Ensures`: what is true of every success.
2. `Node.classify_supplied`: enumerations and choices in a classified schema are not empty.
3. `Document.supplied_of_parse`: the same of a document.
-/

namespace SchemaSampler

namespace Except

variable {α β ε : Type}

/-- The property holds of the value if there is one. -/
def Ensures (result : Except ε α) (property : α → Prop) : Prop :=
  ∀ value, result = .ok value → property value

namespace Ensures

theorem ok {property : α → Prop} {value : α} (holds : property value) :
    Ensures (.ok value : Except ε α) property :=
  fun _ same => Except.ok.inj same ▸ holds

theorem error {property : α → Prop} (error : ε) : Ensures (.error error) property := nofun

theorem bind {result : Except ε α} {next : α → Except ε β} {property : α → Prop}
    {later : β → Prop} (first : Ensures result property)
    (second : ∀ value, property value → Ensures (next value) later) :
    Ensures (result >>= next) later := by
  intro value succeeded
  obtain ⟨between, own, rest⟩ := bind_eq_ok.mp succeeded
  exact second between (first between own) value rest

/-- Every image has the property, and there are as many as there are items. -/
theorem mapM {f : β → Except ε α} {property : α → Prop}
    (each : ∀ item, Ensures (f item) property) (items : List β) :
    Ensures (items.mapM f) fun images =>
      images.length = items.length ∧ ∀ image ∈ images, property image := by
  intro images mapped
  have paired := mapM_eq_ok mapped
  refine ⟨paired.length_eq.symm, fun image present => ?_⟩
  obtain ⟨item, -, own⟩ := Generator.exists_left_of_mem paired present
  exact each item image own

theorem entriesMapM {f : β → Except ε α} {property : α → Prop}
    (each : ∀ item, Ensures (f item) property) (entries : Entries β) :
    Ensures (Entries.mapM f entries) fun images => ∀ image ∈ images, property image.2 := by
  intro images mapped image present
  have listed : (image.1, Except.ok image.2) ∈ entries.map fun entry => (entry.1, f entry.2) := by
    rw [entriesMapM_eq_ok mapped]
    exact List.mem_map.mpr ⟨image, present, rfl⟩
  obtain ⟨entry, -, same⟩ := List.mem_map.mp listed
  exact each entry.2 image.2 (Prod.mk.inj same).2

end Ensures

end Except

namespace Node

/-! ## Nodes with alternatives -/

/-- The node itself has a value or a member where it chooses one. -/
def Offers : Node → Prop
  | .enumeration _ values => values ≠ []
  | .anyOf members => members ≠ []
  | .oneOf members => members ≠ []
  | _ => True

/-- All parts of the node offer alternatives. -/
def Supplied (node : Node) : Prop := ∀ part : Node, part.Part node → part.Offers

theorem Supplied.of_inside {node : Node} (own : node.Offers)
    (each : ∀ inner : Node, inner.Inside node → inner.Supplied) : node.Supplied := by
  intro part below
  rcases below.cases with rfl | ⟨inner, inside, deeper⟩
  · exact own
  · exact each inner inside part deeper

theorem Supplied.of_isLeaf {node : Node} (leaf : node.IsLeaf) (own : node.Offers) :
    node.Supplied := by
  refine .of_inside own fun inner inside => ?_
  cases inside <;> exact leaf.elim

/-! ## Classification -/

theorem enumerated_supplied (kind : EnumKind) (values : List Json) (source : Json) :
    Except.Ensures (enumerated kind values source) Supplied := by
  unfold enumerated
  split
  · exact .error _
  next stocked => exact .ok (.of_isLeaf trivial fun none => stocked (List.isEmpty_iff.mpr none))

section Layer

variable {inner : Json → Classified Node} (deeper : ∀ schema, Except.Ensures (inner schema) Supplied)
  (keywords : Keywords) (source : Json)

include deeper

theorem classifyArray_supplied : Except.Ensures (classifyArray inner keywords) Supplied := by
  unfold classifyArray
  split
  · refine (Except.Ensures.mapM deeper _).bind fun nodes ⟨_, each⟩ => .ok ?_
    refine .of_inside trivial fun inner inside => ?_
    cases inside with
    | component present => exact each _ present
  · refine (deeper _).bind fun node supplied => .ok ?_
    refine .of_inside trivial fun inner inside => ?_
    cases inside
    exact supplied
  · refine .ok (.of_inside trivial fun inner inside => ?_)
    cases inside
    exact .of_isLeaf trivial trivial

theorem classifyAdditional_supplied (schema : Option Json) :
    Except.Ensures (classifyAdditional inner schema) fun additional =>
      ∀ node, additional = .schema node → node.Supplied := by
  unfold classifyAdditional
  split
  · exact .ok nofun
  · exact .ok nofun
  · exact .ok nofun
  · refine (deeper _).bind fun node supplied => .ok ?_
    rintro _ ⟨⟩
    exact supplied

theorem classifyObject_supplied : Except.Ensures (classifyObject inner keywords) Supplied := by
  refine (Except.Ensures.entriesMapM deeper _).bind fun properties declared => ?_
  refine (Except.Ensures.entriesMapM deeper _).bind fun patterns patterned => ?_
  refine (classifyAdditional_supplied deeper _).bind fun additional further => .ok ?_
  refine .of_inside trivial fun inner inside => ?_
  cases inside with
  | property present => exact declared _ present
  | patterned present => exact patterned _ present
  | additional same => exact further _ same

theorem classifyTyped_supplied (name : String) :
    Except.Ensures (classifyTyped inner keywords source name) Supplied := by
  unfold classifyTyped
  split
  · exact enumerated_supplied _ _ _
  · split
    case h_6 => exact classifyArray_supplied deeper keywords
    case h_7 => exact classifyObject_supplied deeper keywords
    case h_8 => exact .error _
    all_goals exact .ok (.of_isLeaf trivial trivial)

theorem classifyTypes_supplied (names : List String) :
    Except.Ensures (classifyTypes inner keywords source names) Supplied := by
  have typed := classifyTyped_supplied deeper keywords source
  unfold classifyTypes
  split
  · exact .error _
  · exact typed _
  next several _ =>
    split
    · exact enumerated_supplied _ _ _
    · refine (Except.Ensures.mapM typed _).bind fun nodes ⟨count, each⟩ => .ok ?_
      refine .of_inside ?_ fun inner inside => ?_
      · rintro rfl
        exact several (List.length_eq_zero_iff.mp count.symm)
      · cases inside with
 | anyOf present => exact each _ present

/-- A combination is not empty, and neither is what it contains. -/
theorem classifyMembers_supplied (keyword : Keyword) (members : List Json) :
    Except.Ensures (classifyMembers inner keyword source members) fun nodes =>
      nodes ≠ [] ∧ ∀ node ∈ nodes, node.Supplied := by
  unfold classifyMembers
  split
  · exact .error _
  next stocked =>
    intro nodes mapped
    obtain ⟨count, each⟩ := Except.Ensures.mapM deeper members nodes mapped
    refine ⟨?_, each⟩
    rintro rfl
    exact stocked (List.isEmpty_iff.mpr (List.length_eq_zero_iff.mp count.symm))

theorem classifyUntyped_supplied :
    Except.Ensures (classifyUntyped inner keywords source) Supplied := by
  have members := classifyMembers_supplied deeper source
  unfold classifyUntyped
  cases keywords.enumeration with
  | some values => exact enumerated_supplied _ _ _
  | none =>
  cases keywords.anyOf with
  | some schemas =>
    refine (members .anyOf schemas).bind fun nodes ⟨stocked, each⟩ => .ok ?_
    refine .of_inside stocked fun inner inside => ?_
    cases inside with
    | anyOf present => exact each _ present
  | none =>
  cases keywords.oneOf with
  | some schemas =>
    refine (members .oneOf schemas).bind fun nodes ⟨stocked, each⟩ => .ok ?_
    refine .of_inside stocked fun inner inside => ?_
    cases inside with
    | oneOf present => exact each _ present
  | none =>
  cases keywords.allOf with
  | some schemas =>
    refine (members .allOf schemas).bind fun nodes ⟨_, each⟩ => .ok ?_
    refine .of_inside trivial fun inner inside => ?_
    cases inside with
    | allOf present => exact each _ present
  | none =>
  cases keywords.negation with
  | some negated => exact (deeper negated).bind fun _ _ => .ok (.of_isLeaf trivial trivial)
  | none =>
    dsimp only
    split
    · exact classifyObject_supplied deeper keywords
    · split
      · exact classifyArray_supplied deeper keywords
      · exact .ok (.of_isLeaf trivial trivial)

theorem classifyKeywords_supplied :
    Except.Ensures (classifyKeywords inner keywords source) Supplied := by
  unfold classifyKeywords
  cases keywords.generator with
  | some name => exact .ok (.of_isLeaf trivial trivial)
  | none =>
  cases keywords.reference with
  | some pointer => exact .ok (.of_isLeaf trivial trivial)
  | none =>
  cases keywords.constant with
  | some value => exact .ok (.of_isLeaf trivial trivial)
  | none =>
  cases keywords.type with
  | none => exact classifyUntyped_supplied deeper keywords source
  | some spec =>
    cases spec with
    | single name => exact classifyTyped_supplied deeper keywords source name
    | many names => exact classifyTypes_supplied deeper keywords source names

theorem classifyLayer_supplied (schema : Json) :
    Except.Ensures (classifyLayer inner schema) Supplied := by
  unfold classifyLayer
  split
  · exact .ok (.of_isLeaf trivial trivial)
  · exact .error _
  next members =>
    cases Keywords.read (.obj members) with
    | error => exact .error _
    | ok keywords => exact classifyKeywords_supplied deeper keywords _
  · exact .error _

end Layer

theorem classifyWithin_supplied (depth : Nat) (schema : Json) :
    Except.Ensures (classifyWithin depth schema) Supplied := by
  induction depth generalizing schema with
  | zero => exact .error _
  | succ depth ih => exact classifyLayer_supplied ih schema

theorem classify_supplied {schema : Json} {node : Node} (classified : classify schema = .ok node) :
    node.Supplied :=
  classifyWithin_supplied _ schema node classified

end Node

/-- All nodes of a parsed document offer alternatives. -/
theorem Document.supplied_of_parse {schema : Json} {document : Document}
    (parsed : parse schema = .ok document) {node : Node} (present : Document.Part node document) :
    node.Offers := by
  obtain ⟨root, definitions, -, each⟩ := parse_eq_ok parsed
  rcases present with below | ⟨entry, listed, below⟩
  · exact Node.classify_supplied root node below
  · have among : (entry.1, (.ok entry.2 : Node.Classified Node)) ∈
        definitions.map fun entry => (entry.1, Node.classify entry.2) := by
      rw [each]
      exact List.mem_map.mpr ⟨entry, listed, rfl⟩
    obtain ⟨source, -, same⟩ := List.mem_map.mp among
    exact Node.classify_supplied (Prod.mk.inj same).2 node below

end SchemaSampler
