import SchemaSampler.Proofs.Compile.Results
import SchemaSampler.Proofs.Entries
import SchemaSampler.Proofs.Schema.Layers
import SchemaSampler.Schema.Document

/-!
# Schemas with one more definition

The definitions of a schema take no part in its classification, and neither does the number of
levels that classification may go down. So one more definition adds its node to the document and
leaves the root as it was.

Results:
1. `Node.classifyWithin_mono`: more levels change no node.
2. `Keywords.putMembers_insert_definitions`: the keywords of a schema with other definitions.
3. `Document.parse_addDefinition`: the document of a schema with one more definition.
-/

namespace SchemaSampler

/-! ## Results that stay -/

namespace Except

variable {α β ε : Type}

/-- A success of the first is the same success of the second. -/
def Below (result further : Except ε α) : Prop := ∀ value, result = .ok value → further = .ok value

namespace Below

theorem refl (result : Except ε α) : Below result result := fun _ same => same

theorem bind {result further : Except ε α} {next furtherNext : α → Except ε β}
    (first : Below result further) (second : ∀ value, Below (next value) (furtherNext value)) :
    Below (result >>= next) (further >>= furtherNext) := by
  intro value succeeded
  obtain ⟨between, own, later⟩ := bind_eq_ok.mp succeeded
  exact bind_eq_ok.mpr ⟨between, first between own, second between value later⟩

end Below

end Except

/-! ## Classification -/

namespace Node

/-- Successes that stay are related level by level. -/
theorem below_layerRelation (source other : Json) :
    LayerRelation (fun _ => Except.Below) source other where
  success _ := .refl _
  failure _ := fun _ failed => nomatch failed
  bind := Except.Below.bind

section Layer

variable {inner further : Json → Classified Node}
  (deeper : ∀ schema, Except.Below (inner schema) (further schema)) (keywords : Keywords)
  (definitions : Option (Entries Json)) (source extended : Json)

include deeper

theorem classifyKeywords_below :
    Except.Below (classifyKeywords inner keywords source)
      (classifyKeywords further (keywords.withDefinitions definitions) extended) :=
  (below_layerRelation source extended).classifyKeywords (fun schema _ => deeper schema)
    keywords.innerSchemas_true definitions

theorem classifyLayer_below (schema : Json) :
    Except.Below (classifyLayer inner schema) (classifyLayer further schema) := by
  unfold classifyLayer
  split
  · exact .refl _
  · exact .refl _
  next members =>
    cases Keywords.read (.obj members) with
    | error => exact .refl _
    | ok keywords => exact classifyKeywords_below deeper keywords keywords.definitions _ _
  · exact .refl _

end Layer

/-- A schema that is classified keeps its node when classification may go deeper. -/
theorem classifyWithin_mono {depth deeper : Nat} (more : depth ≤ deeper) (schema : Json) :
    Except.Below (classifyWithin depth schema) (classifyWithin deeper schema) := by
  induction depth generalizing deeper schema with
  | zero => exact fun _ failed => nomatch failed
  | succ depth ih =>
    cases deeper with
    | zero => exact absurd more (Nat.not_succ_le_zero depth)
    | succ deeper =>
      exact classifyLayer_below (fun inner => ih (Nat.le_of_succ_le_succ more) inner) schema

end Node

/-! ## Keywords -/

theorem Keyword.name_of_ofName? {text : String} {keyword : Keyword}
    (found : ofName? text = some keyword) : keyword.name = text := by
  simpa using List.find?_some found

namespace Keywords

/-- Every keyword but `definitions` is set without regard to the definitions. -/
theorem put_definitions {keywords : Keywords} (definitions : Option (Entries Json))
    {keyword : Keyword} (other : keyword ≠ .definitions) {value : Json} {result : Keywords}
    (taken : keywords.put keyword value = .ok result) :
    (keywords.withDefinitions definitions).put keyword value =
      .ok (result.withDefinitions definitions) := by
  unfold put at taken ⊢
  split at taken
  · split at taken
    next constant =>
      cases taken
      rw [if_pos constant]
      rfl
    next constant =>
      cases taken
      rw [if_neg constant]
  · unfold set at taken ⊢
    cases keyword with
    | definitions => exact absurd rfl other
    | additionalProperties | items | constant | negation =>
      cases taken
      rfl
    | _ =>
      obtain ⟨read, own, same⟩ := Except.bind_eq_ok.mp taken
      cases same
      exact Except.bind_eq_ok.mpr ⟨read, own, rfl⟩

theorem withDefinitions_of_put {keywords next : Keywords} {value : Json}
    (taken : keywords.put .definitions value = .ok next) (definitions : Option (Entries Json)) :
    next.withDefinitions definitions = keywords.withDefinitions definitions := by
  unfold put at taken
  split at taken
  · cases taken
    rfl
  · obtain ⟨read, -, same⟩ := Except.bind_eq_ok.mp taken
    cases same
    rfl

theorem putMembers_cons_eq_ok {keywords result : Keywords} {name : String} {value : Json}
    {rest : Entries Json} :
    putMembers keywords ((name, value) :: rest) = .ok result ↔
      Keyword.ofName? name = none ∧ putMembers keywords rest = .ok result ∨
      ∃ keyword next, Keyword.ofName? name = some keyword ∧
        keywords.put keyword value = .ok next ∧ putMembers next rest = .ok result := by
  rw [putMembers]
  cases Keyword.ofName? name with
  | none => simp
  | some keyword => cases put : keywords.put keyword value <;> simp [put]

theorem putMembers_definitions {keywords : Keywords} (definitions : Option (Entries Json))
    {members : Entries Json} (without : "definitions" ∉ Entries.names members) {result : Keywords}
    (taken : putMembers keywords members = .ok result) :
    putMembers (keywords.withDefinitions definitions) members =
      .ok (result.withDefinitions definitions) := by
  induction members generalizing keywords with
  | nil =>
    cases taken
    rfl
  | cons member rest ih =>
    obtain ⟨name, value⟩ := member
    rw [Entries.names, List.map_cons, List.mem_cons, not_or] at without
    rcases putMembers_cons_eq_ok.mp taken with ⟨unknown, later⟩ | ⟨keyword, next, known, put, later⟩
    · exact putMembers_cons_eq_ok.mpr (.inl ⟨unknown, ih without.2 later⟩)
    · have other : keyword ≠ .definitions := by
        rintro rfl
        exact without.1 (Keyword.name_of_ofName? known)
      exact putMembers_cons_eq_ok.mpr
        (.inr ⟨keyword, _, known, put_definitions definitions other put, ih without.2 later⟩)

/-- Other definitions replace those that a schema has and change no other keyword. -/
theorem putMembers_insert_definitions {keywords : Keywords} (definitions : Entries Json)
    {members : Entries Json} (sorted : members.Sorted) {result : Keywords}
    (taken : putMembers keywords members = .ok result) :
    putMembers keywords (Entries.insert "definitions" (.obj definitions) members) =
      .ok (result.withDefinitions (some definitions)) := by
  induction members generalizing keywords with
  | nil =>
    cases taken
    rfl
  | cons member rest ih =>
    obtain ⟨name, value⟩ := member
    obtain ⟨first, sorted⟩ := List.pairwise_cons.mp sorted
    have behind : ∀ other : String, other ≤ name → other ∉ Entries.names rest := by
      intro other before present
      obtain ⟨entry, listed, rfl⟩ := List.mem_map.mp present
      exact absurd (first entry listed) (not_lt_of_ge before)
    have replaced : ∀ rest, putMembers keywords (("definitions", .obj definitions) :: rest) =
        putMembers (keywords.withDefinitions (some definitions)) rest := fun _ => rfl
    rw [Entries.insert]
    split
    next before =>
      rw [replaced]
      refine putMembers_definitions _ ?_ taken
      rw [Entries.names, List.map_cons, List.mem_cons, not_or]
      exact ⟨before.ne, behind _ before.le⟩
    next =>
      split
      next same =>
        subst same
        rw [replaced]
        rcases putMembers_cons_eq_ok.mp taken with ⟨unknown, -⟩ | ⟨keyword, next, known, put, later⟩
        · cases unknown
        · cases known
          rw [← withDefinitions_of_put put]
          exact putMembers_definitions _ (behind _ le_rfl) later
      next different =>
        rcases putMembers_cons_eq_ok.mp taken with ⟨unknown, later⟩ | ⟨keyword, next, known, put, later⟩
        · exact putMembers_cons_eq_ok.mpr (.inl ⟨unknown, ih sorted later⟩)
        · exact putMembers_cons_eq_ok.mpr (.inr ⟨keyword, next, known, put, ih sorted later⟩)

end Keywords

/-! ## Documents -/

/-- Other definitions leave a classified schema its node. -/
theorem Node.classify_insert_definitions {members definitions : Entries Json}
    (sorted : members.Sorted) {node other : Node}
    (classified : Node.classify (.obj members) = .ok node)
    (further : Node.classify (.obj (Entries.insert "definitions" (.obj definitions) members)) =
      .ok other) : other = node := by
  let extended := Entries.insert "definitions" (.obj definitions) members
  -- Classification of both goes down to the same level.
  let depth := max (Json.obj members).depth (Json.obj extended).depth
  have own : classifyWithin (depth + 1) (.obj members) = .ok node :=
    classifyWithin_mono (Nat.succ_le_succ (Nat.le_max_left _ _)) _ _ classified
  have same : classifyWithin (depth + 1) (.obj extended) = .ok other :=
    classifyWithin_mono (Nat.succ_le_succ (Nat.le_max_right _ _)) _ _ further
  rw [classifyWithin, classifyLayer] at own same
  split at own
  next keywords read =>
    have readFurther : Keywords.read (.obj extended) =
        .ok (keywords.withDefinitions (some definitions)) :=
      Keywords.putMembers_insert_definitions definitions sorted read
    rw [readFurther] at same
    have kept := classifyKeywords_below (fun _ => .refl _) keywords (some definitions) _
      (.obj extended) node own
    exact Except.ok.inj (same.symm.trans kept)
  next => cases own

theorem Json.WellFormed.member {members : Entries Json} (wellFormed : (Json.obj members).WellFormed)
    {name : String} {value : Json} (present : (name, value) ∈ members) : value.WellFormed := by
  replace wellFormed : WellFormedMembers members := wellFormed.2
  induction members with
  | nil => cases present
  | cons member rest ih =>
    rcases List.mem_cons.mp present with rfl | later
    · exact wellFormed.1
    · exact ih later wellFormed.2

theorem Entries.sorted_iff_names {α : Type} {entries : Entries α} :
    entries.Sorted ↔ (Entries.names entries).Pairwise (· < ·) :=
  List.pairwise_map.symm

namespace Document

theorem names_definitions {schema : Json} {document : Document}
    (parsed : parse schema = .ok document) {definitions : Entries Json}
    (given : definitionsOf schema = .obj definitions) :
    Entries.names document.definitions = Entries.names definitions := by
  obtain ⟨-, _, stated, each⟩ := parse_eq_ok parsed
  cases given.symm.trans stated
  have both := congrArg (List.map Prod.fst) each
  rw [List.map_map, List.map_map] at both
  exact both.symm

/-- The definitions of a well-formed schema are in the order of their names. -/
theorem sorted_definitions {schema : Json} (wellFormed : schema.WellFormed) {document : Document}
    (parsed : parse schema = .ok document) : document.definitions.Sorted := by
  obtain ⟨-, definitions, given, -⟩ := parse_eq_ok parsed
  have sorted : Entries.Sorted definitions := by
    cases schema with
    | obj members =>
      change (Entries.get? members "definitions").getD (.obj []) = .obj definitions at given
      cases found : Entries.get? members "definitions" with
      | none =>
        rw [found] at given
        cases given
        exact .nil
      | some value =>
        rw [found] at given
        cases given
        exact (wellFormed.member (Entries.mem_of_get?_eq_some found)).1
    | _ =>
      cases given
      exact .nil
  rw [Entries.sorted_iff_names, names_definitions parsed given]
  exact Entries.sorted_iff_names.mp sorted

/-- One more definition adds its node to the document and changes nothing else. -/
theorem parse_addDefinition {members definitions : Entries Json} {name : String} {definition : Json}
    (sorted : members.Sorted) (given : definitionsOf (.obj members) = .obj definitions)
    {document extended : Document} (parsed : parse (.obj members) = .ok document)
    (further : parse (.obj (Entries.insert "definitions"
      (.obj (Entries.insert name definition definitions)) members)) = .ok extended) :
    extended.root = document.root ∧
      ∃ node, extended.definitions = Entries.insert name node document.definitions := by
  obtain ⟨root, _, stated, each⟩ := parse_eq_ok parsed
  cases given.symm.trans stated
  obtain ⟨otherRoot, _, statedFurther, eachFurther⟩ := parse_eq_ok further
  have more : definitionsOf (.obj (Entries.insert "definitions"
      (.obj (Entries.insert name definition definitions)) members)) =
      .obj (Entries.insert name definition definitions) := by
    show (Entries.get? _ _).getD _ = _
    rw [Entries.get?_insert, if_pos rfl]
    rfl
  cases more.symm.trans statedFurther
  refine ⟨Node.classify_insert_definitions sorted root otherRoot, ?_⟩
  rw [Entries.map_insert, each] at eachFurther
  have inserted : (name, Node.classify definition) ∈
      extended.definitions.map fun entry => (entry.1, (.ok entry.2 : Node.Classified Node)) := by
    rw [← eachFurther]
    exact Entries.mem_of_get?_eq_some (by rw [Entries.get?_insert, if_pos rfl])
  obtain ⟨⟨_, node⟩, -, same⟩ := List.mem_map.mp inserted
  obtain ⟨rfl, classified⟩ := Prod.mk.inj same
  rw [← classified, ← Entries.map_insert _ _ _ (.ok : Node → Node.Classified Node)] at eachFurther
  have injective : Function.Injective fun entry : String × Node =>
      (entry.1, (.ok entry.2 : Node.Classified Node)) :=
    fun _ _ same => Prod.ext (Prod.mk.inj same).1 (Except.ok.inj (Prod.mk.inj same).2)
  exact ⟨node, (List.map_injective_iff.mpr injective eachFurther).symm⟩

end Document

end SchemaSampler
