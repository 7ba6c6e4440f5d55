import SchemaSampler.Proofs.Schema.Extension
import SchemaSampler.Proofs.Validity.Checks
import SchemaSampler.Proofs.Validity.Classified

/-!
# Schemas written again

The keywords that were read from a schema object can be written as an object again. What is lost
on the way are unknown keywords, absent ones that were spelled out as `null`, and whether a bound
was an integer or a float. Classification looks at none of these.

Results:
1. `Keywords.putMembers_eq_takeAll`: an object is read by what it states.
2. `Keywords.read_toJson`: what was read and then written is read as the same.
3. `Node.classifyWithin_congr`: levels beyond the depth of a schema do not matter.
4. `Node.classify_toJson`: a schema and the schema written again are classified alike.
-/

namespace SchemaSampler

namespace Keyword

/-- The value of a keyword as it is written again: bounds become floats. -/
def written : Keyword → Json → Json
  | minimum, .int value => .float (Binary64.ofInt value)
  | maximum, .int value => .float (Binary64.ofInt value)
  | exclusiveMinimum, .int value => .float (Binary64.ofInt value)
  | exclusiveMaximum, .int value => .float (Binary64.ofInt value)
  | multipleOf, .int value => .float (Binary64.ofInt value)
  | _, value => value

/-- The value makes the keyword present. -/
def counts (keyword : Keyword) : Json → Bool
  | .null => keyword == constant
  | _ => true

theorem written_written (keyword : Keyword) (value : Json) :
    keyword.written (keyword.written value) = keyword.written value := by
  cases keyword <;> cases value <;> rfl

theorem counts_written (keyword : Keyword) (value : Json) :
    keyword.counts (keyword.written value) = keyword.counts value := by
  cases keyword <;> cases value <;> rfl

theorem depth_written (keyword : Keyword) (value : Json) :
    (keyword.written value).depth = value.depth := by
  cases keyword <;> cases value <;> rfl

theorem name_injective {keyword other : Keyword} (same : keyword.name = other.name) :
    keyword = other := by
  have found := Schema.ofName?_name keyword
  rw [same, Schema.ofName?_name] at found
  exact (Option.some.inj found).symm

theorem mem_all (keyword : Keyword) : keyword ∈ all := by cases keyword <;> decide

end Keyword

namespace Keywords

variable {keywords next : Keywords} {keyword other : Keyword} {value : Json}

/-! ## Values that are read -/

theorem readMap_eq_ok {entries : Entries Json} (read : readMap value = .ok entries) :
    Json.obj entries = value := by
  cases value <;> cases read
  rfl

theorem readSequence_eq_ok {items : List Json} (read : readSequence value = .ok items) :
    Json.arr items = value := by
  cases value <;> cases read
  rfl

theorem readText_eq_ok {text : String} (read : readText value = .ok text) :
    Json.str text = value := by
  cases value <;> cases read
  rfl

theorem readBoolean_eq_ok {flag : Bool} (read : readBoolean value = .ok flag) :
    Json.bool flag = value := by
  cases value <;> cases read
  rfl

theorem readTexts_eq_ok {texts : List String} (read : readTexts value = .ok texts) :
    Json.strings texts = value := by
  obtain ⟨items, sequence, each⟩ := Except.bind_eq_ok.mp read
  rw [← readSequence_eq_ok sequence]
  refine congrArg Json.arr ?_
  have same := Except.mapM_eq_ok each
  clear each sequence read
  induction same with
  | nil => rfl
  | cons own _ ih => rw [List.map_cons, ih, readText_eq_ok own]

theorem readNatural_eq_ok {count : Nat} (read : readNatural value = .ok count) :
    naturalJson count = value := by
  cases value with
  | int value =>
    rw [readNatural] at read
    split at read
    · cases read
    · cases read
      rw [naturalJson, Int.toNat_of_nonneg (by omega)]
  | _ => cases read

theorem readType_eq_ok {spec : TypeSpec} (read : readType value = .ok spec) :
    spec.toJson = value := by
  unfold readType at read
  split at read
  · cases read
    rfl
  · split at read
    next names listed =>
      cases read
      exact readTexts_eq_ok listed
    next => cases read

/-! ## One keyword -/

theorem put_of_counts (counts : keyword.counts value = true) :
    keywords.put keyword value = keywords.set value keyword := by
  cases value with
  | null =>
    cases eq_of_beq counts
    rfl
  | _ => rfl

theorem put_of_not_counts (ignored : keyword.counts value = false) :
    keywords.put keyword value = .ok keywords := by
  cases value with
  | null => exact if_neg (ne_of_beq_false ignored)
  | _ => cases ignored

/-- What is taken in for a keyword is what will be written. -/
theorem get?_set_self (taken : keywords.set value keyword = .ok next) :
    next.get? keyword = some (keyword.written value) := by
  unfold set at taken
  cases keyword with
  | additionalProperties | items | constant | negation =>
    cases taken
    rfl
  | minimum | maximum | multipleOf =>
    cases value <;> cases taken <;> rfl
  | exclusiveMinimum | exclusiveMaximum =>
    cases value <;> cases taken <;> rfl
  | _ =>
    obtain ⟨read, own, same⟩ := Except.bind_eq_ok.mp taken
    cases same
    refine congrArg some ?_
    first
      | exact readMap_eq_ok own
      | exact readSequence_eq_ok own
      | exact readText_eq_ok own
      | exact readTexts_eq_ok own
      | exact readBoolean_eq_ok own
      | exact readNatural_eq_ok own
      | exact readType_eq_ok own

/-- Taking a value in leaves the other keywords as they are. -/
theorem get?_set_other (taken : keywords.set value keyword = .ok next) (different : other ≠ keyword) :
    next.get? other = keywords.get? other := by
  unfold set at taken
  cases keyword with
  | additionalProperties | items | constant | negation =>
    cases taken
    cases other <;> first | rfl | exact absurd rfl different
  | _ =>
    obtain ⟨read, -, same⟩ := Except.bind_eq_ok.mp taken
    cases same
    cases other <;> first | rfl | exact absurd rfl different

/-- Whether a value is taken in does not depend on the other keywords. -/
theorem set_elsewhere (taken : keywords.set value keyword = .ok next) (start : Keywords) :
    ∃ later, start.set value keyword = .ok later := by
  unfold set at taken ⊢
  cases keyword with
  | additionalProperties | items | constant | negation => exact ⟨_, rfl⟩
  | _ =>
    obtain ⟨read, own, -⟩ := Except.bind_eq_ok.mp taken
    exact ⟨_, Except.bind_eq_ok.mpr ⟨read, own, rfl⟩⟩

/-- A value is taken in like the value as it is written again. -/
theorem set_written (keywords : Keywords) (keyword : Keyword) (value : Json) :
    keywords.set (keyword.written value) keyword = keywords.set value keyword := by
  cases keyword <;> cases value <;> rfl

theorem strings_injective : Function.Injective Json.strings := fun _ _ same =>
  List.map_injective_iff.mpr (fun _ _ => Json.str.inj) (Json.arr.inj same)

theorem naturalJson_injective : Function.Injective naturalJson := fun _ _ same =>
  Int.ofNat.inj (Json.int.inj same)

theorem typeSpec_injective : Function.Injective TypeSpec.toJson := by
  intro spec other same
  cases spec with
  | single name =>
    cases other with
    | single => exact congrArg TypeSpec.single (Json.str.inj same)
    | many => cases same
  | many names =>
    cases other with
    | single => cases same
    | many => exact congrArg TypeSpec.many (strings_injective same)

theorem exclusiveBound_injective : Function.Injective ExclusiveBound.toJson := by
  intro bound other same
  cases bound <;> cases other <;> cases same <;> rfl

attribute [ext] Keywords

/-- Keywords are determined by what is written of them. -/
theorem ext_get? {keywords others : Keywords}
    (same : ∀ keyword, keywords.get? keyword = others.get? keyword) : keywords = others := by
  have map : Function.Injective Json.obj := fun _ _ => Json.obj.inj
  have list : Function.Injective Json.arr := fun _ _ => Json.arr.inj
  have text : Function.Injective Json.str := fun _ _ => Json.str.inj
  have number : Function.Injective Json.float := fun _ _ => Json.float.inj
  have flag : Function.Injective Json.bool := fun _ _ => Json.bool.inj
  have via {α : Type} {write : α → Json} (injective : Function.Injective write)
      {value other : Option α} (written : value.map write = other.map write) : value = other :=
    Option.map_injective injective written
  exact Keywords.ext
    (via typeSpec_injective (same .type)) (via map (same .properties))
    (via strings_injective (same .required)) (same .additionalProperties)
    (via map (same .patternProperties)) (via map (same .dependencies)) (same .items)
    (via naturalJson_injective (same .minItems)) (via naturalJson_injective (same .maxItems))
    (via flag (same .uniqueItems)) (via number (same .minimum)) (via number (same .maximum))
    (via exclusiveBound_injective (same .exclusiveMinimum))
    (via exclusiveBound_injective (same .exclusiveMaximum)) (via number (same .multipleOf))
    (via list (same .enumeration)) (same .constant) (via text (same .reference))
    (via map (same .definitions)) (via list (same .anyOf)) (via list (same .oneOf))
    (via list (same .allOf)) (same .negation) (via text (same .pattern)) (via text (same .faker))
    (via text (same .generator))

/-! ## Objects -/

/-- What a member states: the keyword that it makes present, as it is written again. -/
def statement? (member : String × Json) : Option (Keyword × Json) :=
  match Keyword.ofName? member.1 with
  | none => none
  | some keyword =>
    if keyword.counts member.2 then some (keyword, keyword.written member.2) else none

def stated (members : Entries Json) : List (Keyword × Json) := members.filterMap statement?

theorem statement?_eq_some {name : String} {value kept : Json} :
    statement? (name, value) = some (keyword, kept) ↔
      name = keyword.name ∧ keyword.counts value = true ∧ kept = keyword.written value := by
  unfold statement?
  dsimp only
  cases found : Keyword.ofName? name with
  | none =>
    refine ⟨nofun, ?_⟩
    rintro ⟨rfl, -⟩
    rw [Schema.ofName?_name] at found
    cases found
  | some other =>
    cases Keyword.name_of_ofName? found
    dsimp only
    rw [Option.ite_none_right_eq_some, Option.some.injEq, Prod.mk.injEq]
    constructor
    · rintro ⟨counts, rfl, rfl⟩
      exact ⟨rfl, counts, rfl⟩
    · rintro ⟨same, counts, rfl⟩
      cases Keyword.name_injective same
      exact ⟨counts, rfl, rfl⟩

theorem mem_stated {members : Entries Json} :
    (keyword, value) ∈ stated members ↔ ∃ original, (keyword.name, original) ∈ members ∧
      keyword.counts original = true ∧ value = keyword.written original := by
  rw [stated, List.mem_filterMap]
  constructor
  · rintro ⟨⟨name, original⟩, member, states⟩
    obtain ⟨rfl, counts, same⟩ := statement?_eq_some.mp states
    exact ⟨original, member, counts, same⟩
  · rintro ⟨original, member, counts, same⟩
    exact ⟨(keyword.name, original), member, statement?_eq_some.mpr ⟨rfl, counts, same⟩⟩

/-- Takes statements in, one after the other. -/
def takeAll (keywords : Keywords) (statements : List (Keyword × Json)) :
    Except KeywordFault Keywords :=
  statements.foldlM (fun keywords statement => keywords.set statement.2 statement.1) keywords

/-- An object is read by what it states. -/
theorem putMembers_eq_takeAll (keywords : Keywords) (members : Entries Json) :
    putMembers keywords members = takeAll keywords (stated members) := by
  induction members generalizing keywords with
  | nil => rfl
  | cons member rest ih =>
    obtain ⟨name, value⟩ := member
    rw [putMembers, stated, List.filterMap_cons, statement?]
    dsimp only
    cases Keyword.ofName? name with
    | none => exact ih keywords
    | some keyword =>
      dsimp only
      cases counts : keyword.counts value with
      | false =>
        rw [put_of_not_counts counts]
        exact ih keywords
      | true =>
        rw [put_of_counts counts, if_pos rfl, takeAll, List.foldlM_cons, set_written]
        cases keywords.set value keyword with
        | error fault => rfl
        | ok next => exact ih next

/-- Every keyword that is present afterwards was so before or was stated. -/
theorem get?_takeAll {statements : List (Keyword × Json)} {result : Keywords}
    (taken : takeAll keywords statements = .ok result) (present : result.get? keyword = some value) :
    keywords.get? keyword = some value ∨
      ∃ stated, (keyword, stated) ∈ statements ∧ value = keyword.written stated := by
  induction statements generalizing keywords with
  | nil =>
    cases taken
    exact .inl present
  | cons statement rest ih =>
    obtain ⟨next, own, later⟩ := Except.bind_eq_ok.mp taken
    rcases ih later with before | ⟨stated, listed, same⟩
    · by_cases same : keyword = statement.1
      · subst same
        rw [get?_set_self own] at before
        exact .inr ⟨statement.2, List.mem_cons_self, (Option.some.inj before).symm⟩
      · rw [get?_set_other own same] at before
        exact .inl before
    · exact .inr ⟨stated, List.mem_cons_of_mem _ listed, same⟩

/-- The value of the keyword can be taken in. -/
def Accepts (keyword : Keyword) (value : Json) : Prop :=
  ∀ start : Keywords, ∃ next, start.set value keyword = .ok next

theorem accepts_of_takeAll {statements : List (Keyword × Json)} {result : Keywords}
    (taken : takeAll keywords statements = .ok result) {statement : Keyword × Json}
    (listed : statement ∈ statements) : Accepts statement.1 statement.2 := by
  induction statements generalizing keywords with
  | nil => cases listed
  | cons first rest ih =>
    obtain ⟨next, own, later⟩ := Except.bind_eq_ok.mp taken
    rcases List.mem_cons.mp listed with rfl | further
    · exact set_elsewhere own
    · exact ih later further

/-- Statements that agree with some keywords are taken in, and nothing but them is. -/
theorem takeAll_of_agrees {statements : List (Keyword × Json)} {target : Keywords}
    (agrees : ∀ statement ∈ statements, Accepts statement.1 statement.2 ∧
      target.get? statement.1 = some (statement.1.written statement.2))
    (start : Keywords) :
    ∃ result, takeAll start statements = .ok result ∧ ∀ keyword,
      result.get? keyword = target.get? keyword ∨
        (∀ value, (keyword, value) ∉ statements) ∧ result.get? keyword = start.get? keyword := by
  induction statements generalizing start with
  | nil => exact ⟨start, rfl, fun _ => .inr ⟨nofun, rfl⟩⟩
  | cons statement rest ih =>
    obtain ⟨accepted, same⟩ := agrees statement List.mem_cons_self
    obtain ⟨next, own⟩ := accepted start
    obtain ⟨result, later, settled⟩ :=
      ih (fun other listed => agrees other (List.mem_cons_of_mem _ listed)) next
    refine ⟨result, Except.bind_eq_ok.mpr ⟨next, own, later⟩, fun keyword => ?_⟩
    rcases settled keyword with done | ⟨unstated, kept⟩
    · exact .inl done
    · by_cases stated : keyword = statement.1
      · subst stated
        exact .inl (by rw [kept, get?_set_self own, same])
      · refine .inr ⟨fun value listed => ?_, by rw [kept, get?_set_other own stated]⟩
        rcases List.mem_cons.mp listed with first | further
        · exact stated (congrArg Prod.fst first)
        · exact unstated value further

theorem get?_empty (keyword : Keyword) : ({} : Keywords).get? keyword = none := by
  cases keyword <;> rfl

/-- An object states every keyword that is present after reading it. -/
theorem mem_stated_of_read {members : Entries Json}
    (read : Keywords.read (.obj members) = .ok keywords)
    (present : keywords.get? keyword = some value) : (keyword, value) ∈ stated members := by
  have taken : takeAll {} (stated members) = .ok keywords :=
    (putMembers_eq_takeAll {} members).symm.trans read
  rcases get?_takeAll taken present with absent | ⟨statement, listed, rfl⟩
  · rw [get?_empty] at absent
    cases absent
  · obtain ⟨original, member, counts, rfl⟩ := mem_stated.mp listed
    rwa [Keyword.written_written]

/-! ## The object of the keywords -/

/-- The members that are written. -/
def members (keywords : Keywords) : List (String × Json) :=
  Keyword.all.filterMap fun keyword =>
    (keywords.get? keyword).map fun value => (keyword.name, value)

theorem mem_members {name : String} :
    (name, value) ∈ keywords.members ↔
      ∃ keyword : Keyword, keyword.name = name ∧ keywords.get? keyword = some value := by
  simp [members, Keyword.mem_all, and_comm]

theorem mem_ofList_members :
    (keyword.name, value) ∈ Entries.ofList keywords.members ↔ keywords.get? keyword = some value := by
  have only {name : String} {value : Json} (listed : (name, value) ∈ Entries.ofList keywords.members) :
      ∃ keyword : Keyword, keyword.name = name ∧ keywords.get? keyword = some value :=
    mem_members.mp (Entries.mem_of_mem_ofList listed)
  constructor
  · intro listed
    obtain ⟨other, same, present⟩ := only listed
    rwa [← Keyword.name_injective same]
  · intro present
    -- The name is listed with some value, which can only be that of the keyword.
    have named : keyword.name ∈ Entries.names (Entries.ofList keywords.members) :=
      Entries.mem_names_ofList.mpr
        (Entries.mem_names_of_mem (mem_members.mpr ⟨keyword, rfl, present⟩))
    obtain ⟨⟨name, kept⟩, listed, rfl⟩ := List.mem_map.mp named
    obtain ⟨other, same, also⟩ := only listed
    rw [Keyword.name_injective same, present] at also
    rwa [Option.some.inj also]

/-- What was read is stated when it is written, and nothing but it is. -/
theorem mem_stated_toJson {members : Entries Json}
    (read : Keywords.read (.obj members) = .ok keywords) :
    (keyword, value) ∈ stated (Entries.ofList keywords.members) ↔
      keywords.get? keyword = some value := by
  rw [mem_stated]
  have lasting {value : Json} (present : keywords.get? keyword = some value) :
      keyword.counts value = true ∧ value = keyword.written value := by
    obtain ⟨original, -, counts, rfl⟩ := mem_stated.mp (mem_stated_of_read read present)
    exact ⟨by rwa [Keyword.counts_written], (Keyword.written_written _ _).symm⟩
  constructor
  · rintro ⟨original, listed, -, rfl⟩
    have present := mem_ofList_members.mp listed
    rwa [← (lasting present).2]
  · intro present
    exact ⟨value, mem_ofList_members.mpr present, lasting present⟩

/-- What was read and then written is read as the same. -/
theorem read_toJson {members : Entries Json} (read : Keywords.read (.obj members) = .ok keywords) :
    Keywords.read keywords.toJson = .ok keywords := by
  have taken : takeAll {} (stated members) = .ok keywords :=
    (putMembers_eq_takeAll {} members).symm.trans read
  have agrees : ∀ statement ∈ stated (Entries.ofList keywords.members),
      Accepts statement.1 statement.2 ∧
        keywords.get? statement.1 = some (statement.1.written statement.2) := by
    rintro ⟨keyword, value⟩ listed
    have present := (mem_stated_toJson read).mp listed
    have original := mem_stated_of_read read present
    refine ⟨accepts_of_takeAll taken original, ?_⟩
    obtain ⟨_, -, -, rfl⟩ := mem_stated.mp original
    rw [Keyword.written_written, present]
  obtain ⟨result, again, settled⟩ := takeAll_of_agrees agrees {}
  have same : result = keywords := by
    refine ext_get? fun keyword => ?_
    rcases settled keyword with done | ⟨unstated, kept⟩
    · exact done
    · rw [kept, get?_empty]
      cases present : keywords.get? keyword with
      | none => rfl
      | some value => exact absurd ((mem_stated_toJson read).mpr present) (unstated value)
  exact (putMembers_eq_takeAll {} _).trans (same ▸ again)

/-! ## Depths -/

theorem depth_of_read {members : Entries Json} (read : Keywords.read (.obj members) = .ok keywords)
    (present : keywords.get? keyword = some value) : value.depth ≤ Json.membersDepth members := by
  obtain ⟨original, member, -, rfl⟩ := mem_stated.mp (mem_stated_of_read read present)
  rw [Keyword.depth_written]
  exact Json.depth_le_membersDepth member

/-- Inner schemas are no deeper than the keywords that they stand in. -/
theorem innerSchemas_of_depth {bound : Nat}
    (shallow : ∀ keyword value, keywords.get? keyword = some value → value.depth ≤ bound) :
    keywords.InnerSchemas fun schema => schema.depth ≤ bound := by
  have entries (keyword : Keyword) {entries : Entries Json}
      (present : keywords.get? keyword = some (.obj entries)) :
      ∀ entry ∈ entries, entry.2.depth ≤ bound := fun entry listed =>
    (Json.depth_lt_of_member listed).le.trans (shallow keyword _ present)
  have items (keyword : Keyword) {items : List Json}
      (present : keywords.get? keyword = some (.arr items)) :
      ∀ item ∈ items, item.depth ≤ bound := fun item listed =>
    (Json.depth_lt_of_item listed).le.trans (shallow keyword _ present)
  exact {
    properties := fun _ stated => entries .properties (congrArg (Option.map Json.obj) stated)
    patterns := fun _ stated => entries .patternProperties (congrArg (Option.map Json.obj) stated)
    additional := shallow .additionalProperties
    items := fun schema stated _ => shallow .items schema stated
    places := fun _ stated => items .items stated
    anyOf := fun _ stated => items .anyOf (congrArg (Option.map Json.arr) stated)
    oneOf := fun _ stated => items .oneOf (congrArg (Option.map Json.arr) stated)
    allOf := fun _ stated => items .allOf (congrArg (Option.map Json.arr) stated)
    negation := shallow .negation }

end Keywords

/-! ## Classification -/

namespace Node

/-- The same node, or failures for the same reason. -/
def Agrees {α : Type} (result other : Classified α) : Prop :=
  result.mapError Unsupported.reason = other.mapError Unsupported.reason

theorem agrees_layerRelation (source other : Json) :
    LayerRelation (fun _ => Agrees) source other where
  success _ := rfl
  failure _ := rfl
  bind {_ _ result other _ _} first second := by
    cases result with
    | error fault =>
      cases other with
      | error _ => exact congrArg Except.error (Except.error.inj first)
      | ok _ => cases first
    | ok value =>
      cases other with
      | error _ => cases first
      | ok _ =>
        cases first
        exact second value

/-- Equal results are related between a schema and itself. -/
theorem eq_layerRelation (source : Json) : LayerRelation (fun _ => Eq) source source where
  success _ := rfl
  failure _ := rfl
  bind first second := by rw [first, funext second]

/-- Levels beyond the depth of a schema do not matter. -/
theorem classifyWithin_congr {depth deeper : Nat} {schema : Json} (enough : schema.depth < depth)
    (more : schema.depth < deeper) : classifyWithin depth schema = classifyWithin deeper schema := by
  induction depth generalizing deeper schema with
  | zero => exact absurd enough (Nat.not_lt_zero _)
  | succ depth ih =>
    cases deeper with
    | zero => exact absurd more (Nat.not_lt_zero _)
    | succ deeper =>
      rw [classifyWithin, classifyWithin]
      unfold classifyLayer
      split
      · rfl
      · rfl
      next members =>
        cases read : Keywords.read (.obj members) with
        | error => rfl
        | ok keywords =>
          rw [Json.depth] at enough more
          refine (eq_layerRelation _).classifyKeywords (fun inner shallow => ?_)
            (Keywords.innerSchemas_of_depth fun _ _ => Keywords.depth_of_read read)
            keywords.definitions
          exact ih (by omega) (by omega)
      · rfl

/-- Two objects that are read as the same keywords are classified alike. -/
theorem classify_agrees_of_read {members others : Entries Json} {keywords : Keywords}
    (read : Keywords.read (.obj members) = .ok keywords)
    (same : Keywords.read (.obj others) = .ok keywords) :
    Agrees (classify (.obj others)) (classify (.obj members)) := by
  have layer {members : Entries Json} (read : Keywords.read (.obj members) = .ok keywords) :
      classify (.obj members) = classifyKeywords (classifyWithin (Json.membersDepth members + 1))
        keywords (.obj members) := by
    rw [classify, Json.depth, classifyWithin, classifyLayer, read]
  rw [layer read, layer same]
  refine (agrees_layerRelation _ _).classifyKeywords (fun inner shallow => ?_)
    (Keywords.innerSchemas_of_depth fun _ _ present =>
      le_min (Keywords.depth_of_read same present) (Keywords.depth_of_read read present))
    keywords.definitions
  exact congrArg (Except.mapError Unsupported.reason)
    (classifyWithin_congr (by omega) (by omega))

/-- A schema object and the object of its keywords are read as the same and classified alike. So is
every object that states the same: unknown keywords, keywords other than `const` with the value
`null`, and the way in which a bound is written do not count. -/
theorem classify_toJson {members : Entries Json} {keywords : Keywords}
    (read : Keywords.read (.obj members) = .ok keywords) :
    Keywords.read keywords.toJson = .ok keywords ∧
      (Keywords.read keywords.toJson).map Keywords.toJson = .ok keywords.toJson ∧
      Agrees (classify keywords.toJson) (classify (.obj members)) ∧
      ∀ others, Keywords.stated others = Keywords.stated members →
        Keywords.read (.obj others) = .ok keywords ∧
          Agrees (classify (.obj others)) (classify (.obj members)) := by
  have again := Keywords.read_toJson read
  refine ⟨again, by rw [again]; rfl, classify_agrees_of_read read again, fun others same => ?_⟩
  have alike : Keywords.read (.obj others) = .ok keywords := by
    rw [← read]
    show Keywords.putMembers {} others = Keywords.putMembers {} members
    rw [Keywords.putMembers_eq_takeAll, Keywords.putMembers_eq_takeAll, same]
  exact ⟨alike, classify_agrees_of_read read alike⟩

/-- An integer bound, a `null` and an unknown keyword, and the same schema without them. -/
theorem integerMaximum_classified_alike :
    let members : Entries Json := [("maximum", .int 7), ("minItems", .null),
      ("type", .str "integer"), ("x-unit", .str "cm")]
    let others : Entries Json := [("maximum", .float (Binary64.ofInt 7)), ("type", .str "integer")]
    let keywords : Keywords :=
      { type := some (.single "integer"), maximum := some (Binary64.ofInt 7) }
    Keywords.read (.obj members) = .ok keywords ∧
      Keywords.read keywords.toJson = .ok keywords ∧
      Agrees (classify keywords.toJson) (classify (.obj members)) ∧
      Keywords.stated others = Keywords.stated members ∧
      Agrees (classify (.obj others)) (classify (.obj members)) := by
  intro members others keywords
  have read : Keywords.read (.obj members) = .ok keywords := rfl
  have same : Keywords.stated others = Keywords.stated members := rfl
  obtain ⟨again, -, agrees, alike⟩ := classify_toJson read
  exact ⟨read, again, agrees, same, (alike others same).2⟩

end Node

end SchemaSampler
