import SchemaSampler.Proofs.Compile.Parts

/-!
# Two compilations of a node

Two compilers make related generators of a node, or fail with the same error, if they do so for the
leaves below it and the relation is kept by every way to put generators together. `Keeps` lists
these ways; the induction on the node is done here once for all relations.

Results:
1. `Except.Agree` with rules for sequences of steps.
2. `Compiler.object_agree`: objects of agreeing parts.
3. `Compiler.compile_agree`: nodes.
-/

namespace SchemaSampler

/-! ## Agreement of results -/

namespace Except

variable {α β γ δ ε : Type} {related : α → β → Prop}

/-- Both succeed, with related values, or both fail with the same error. -/
inductive Agree (related : α → β → Prop) : Except ε α → Except ε β → Prop
  | ok {value : α} {other : β} : related value other → Agree related (.ok value) (.ok other)
  | error {error : ε} : Agree related (.error error) (.error error)

namespace Agree

theorem bind {step : Except ε α} {twin : Except ε β} {next : α → Except ε γ}
    {nextTwin : β → Except ε δ} {after : γ → δ → Prop} (first : Agree related step twin)
    (second : ∀ value other, step = .ok value → related value other →
      Agree after (next value) (nextTwin other)) :
    Agree after (step >>= next) (twin >>= nextTwin) := by
  cases first with
  | ok holds => exact second _ _ rfl holds
  | error => exact .error

/-- A step that both sides share. -/
theorem bind_same {step : Except ε α} {next : α → Except ε γ} {nextTwin : α → Except ε δ}
    {after : γ → δ → Prop}
    (second : ∀ value, step = .ok value → Agree after (next value) (nextTwin value)) :
    Agree after (step >>= next) (step >>= nextTwin) := by
  cases step with
  | ok value => exact second value rfl
  | error => exact .error

theorem same {result : Except ε α} {related : α → α → Prop}
    (each : ∀ value, result = .ok value → related value value) : Agree related result result := by
  cases result with
  | ok value => exact .ok (each value rfl)
  | error => exact .error

theorem asInvalid {result : Except InvalidReason α} {twin : Except InvalidReason β}
    (agree : Agree related result twin) :
    Agree related (Except.asInvalid result) (Except.asInvalid twin) := by
  cases agree with
  | ok holds => exact .ok holds
  | error => exact .error

theorem mapM {f : γ → Except ε α} {g : γ → Except ε β} {items : List γ}
    (each : ∀ item ∈ items, Agree related (f item) (g item)) :
    Agree (List.Forall₂ related) (items.mapM f) (items.mapM g) := by
  induction items with
  | nil => exact .ok .nil
  | cons item rest ih =>
    rw [List.mapM_cons, List.mapM_cons]
    refine (each item List.mem_cons_self).bind fun value other _ first => ?_
    refine (ih fun later present => each later (List.mem_cons_of_mem _ present)).bind
      fun values others _ following => ?_
    exact .ok (.cons first following)

end Agree

end Except

/-! ## Entries of the same names -/

/-- Entries of one name with related values. -/
def Named {α β : Type} (related : α → β → Prop) (entry : String × α) (other : String × β) : Prop :=
  entry.1 = other.1 ∧ related entry.2 other.2

namespace Entries

variable {α β : Type} {related : α → β → Prop} {entries : Entries α} {others : Entries β}

theorem names_eq_of_named (pairs : List.Forall₂ (Named related) entries others) :
    names entries = names others := by
  induction pairs with
  | nil => rfl
  | cons first _ ih =>
    simp only [names, List.map_cons] at ih ⊢
    rw [first.1, ih]

theorem get?_of_named (pairs : List.Forall₂ (Named related) entries others) (name : String) :
    Option.Rel related (get? entries name) (get? others name) := by
  induction pairs with
  | nil => exact .none
  | @cons entry other _ _ first _ ih =>
    obtain ⟨key, value⟩ := entry
    obtain ⟨otherKey, otherValue⟩ := other
    obtain ⟨rfl, holds⟩ := first
    rw [get?_cons, get?_cons]
    split
    · exact .some holds
    · exact ih

theorem isEmpty_of_forall₂ {related : α → β → Prop} {items : List α} {others : List β}
    (pairs : List.Forall₂ related items others) : items.isEmpty = others.isEmpty := by
  cases pairs <;> rfl

theorem has_of_named (pairs : List.Forall₂ (Named related) entries others) (name : String) :
    has entries name = has others name := by
  rw [Bool.eq_iff_iff, has_iff_mem_names, has_iff_mem_names, names_eq_of_named pairs]

end Entries

/-! ## Objects -/

namespace Compiler

variable {compiler twin : Compiler} {related : Generator → Generator → Prop}

/-- Object schemas of the same names whose inner schemas agree. -/
structure ObjectParts.Agree (related : Generator → Generator → Prop) (parts others : ObjectParts) :
    Prop where
  properties : List.Forall₂ (Named (Except.Agree related)) parts.properties others.properties
  required : parts.required = others.required
  additional : Option.Rel (Except.Agree related) parts.additional others.additional
  patterns : List.Forall₂ (Named (Except.Agree related)) parts.patterns others.patterns
  dependencies : parts.dependencies = others.dependencies

/-- Groups of one pattern: dictionaries of the keys drawn from it, with related values. -/
def SameGroup (limits : Limits) (reserved : List String) (related : Generator → Generator → Prop)
    (group other : String × Generator) : Prop :=
  group.1 = other.1 ∧ ∃ synthesizer values others excluded,
    Synthesizer.ofPattern? group.1 limits.maxRepeat = some synthesizer ∧
    group.2 = .dictionary (.pattern synthesizer) values limits.maxEntries reserved excluded ∧
    other.2 = .dictionary (.pattern synthesizer) others limits.maxEntries reserved excluded ∧
    related values others

/-- What the records of two objects share is related. -/
structure ObjectPieces.Related {parts otherParts : ObjectParts}
    (related : Generator → Generator → Prop) (pieces : ObjectPieces compiler parts)
    (others : ObjectPieces twin otherParts) : Prop where
  additional : Option.Rel related pieces.additional others.additional
  fields : List.Forall₂ (Named related) pieces.fields others.fields
  matchers : pieces.matchers = others.matchers
  groups : List.Forall₂ (SameGroup compiler.options.limits pieces.reserved related)
    pieces.groups others.groups

/-- The keys of a dictionary in a compiled object. -/
def IsKeys : Generator → Prop
  | .text _ => True
  | .pattern _ => True
  | _ => False

/-- The fields of a record have the same names on both sides. -/
theorem chosen_named {fields others : List (String × Generator)}
    (named : List.Forall₂ (Named related) fields others) (keys : List String) :
    List.Forall₂ (fun field other => Named related field other ∧ field.1 ∈ Entries.names fields)
      (keys.filterMap fun key => (Entries.get? fields key).map fun field => (key, field))
      (keys.filterMap fun key => (Entries.get? others key).map fun field => (key, field)) := by
  induction keys with
  | nil => exact .nil
  | cons key rest ih =>
    have both := Entries.get?_of_named named key
    rw [List.filterMap_cons, List.filterMap_cons]
    cases found : Entries.get? fields key with
    | none =>
      rw [found] at both
      generalize Entries.get? others key = second at both ⊢
      cases both
      exact ih
    | some field =>
      have known := Entries.mem_names_of_mem (Entries.mem_of_get?_eq_some found)
      rw [found] at both
      generalize Entries.get? others key = second at both ⊢
      cases both with
      | some holds => exact .cons ⟨⟨rfl, holds⟩, known⟩ ih

/-- Over the same synthetic keys, records are related if dictionaries and records keep the
relation. -/
theorem ObjectPieces.Related.record {parts otherParts : ObjectParts}
    {pieces : ObjectPieces compiler parts} {others : ObjectPieces twin otherParts}
    (shared : pieces.Related related others) (options : compiler.options = twin.options)
    (record : ∀ {fields others}, List.Forall₂ (Named related) fields others →
      related (.record fields) (.record others))
    (dictionary : ∀ {keys values others maxEntries reserved excluded}, IsKeys keys →
      related values others → related (.dictionary keys values maxEntries reserved excluded)
        (.dictionary keys others maxEntries reserved excluded)) (keys : List String) :
    related (pieces.record keys) (others.record keys) := by
  have reserved : pieces.reserved = others.reserved := Entries.names_eq_of_named shared.fields
  have chosen := (chosen_named shared.fields keys).imp fun _ _ both => both.1
  refine record (List.rel_append chosen (List.rel_append ?_ ?_))
  · rw [← shared.matchers, ← reserved, ← options]
    have extras := shared.additional
    generalize pieces.reserved = reserved
    generalize pieces.additional = additional at extras ⊢
    generalize others.additional = other at extras ⊢
    cases extras with
    | none => exact .nil
    | some holds => exact .cons ⟨rfl, dictionary trivial holds⟩ .nil
  · have inner : related (.record pieces.groups) (.record others.groups) := by
      refine record (shared.groups.imp fun group other same => ⟨same.1, ?_⟩)
      obtain ⟨-, _, _, _, _, -, own, twins, holds⟩ := same
      rw [own, twins]
      exact dictionary trivial holds
    rw [← options, ← Entries.isEmpty_of_forall₂ shared.groups]
    split
    · exact .nil
    · exact .cons ⟨rfl, inner⟩ .nil

theorem optionally_agree {additional other : Option Compiled}
    (agree : Option.Rel (Except.Agree related) additional other) :
    Except.Agree (Option.Rel related) (optionally additional) (optionally other) := by
  cases agree with
  | none => exact .ok .none
  | some both =>
    cases both with
    | ok holds => exact .ok (.some holds)
    | error => exact .error

theorem allCompiled_agree {entries others : List (String × Compiled)}
    (agree : List.Forall₂ (Named (Except.Agree related)) entries others) :
    Except.Agree (List.Forall₂ (Named related)) (allCompiled entries) (allCompiled others) := by
  induction agree with
  | nil => exact .ok .nil
  | @cons entry other _ _ first _ ih =>
    obtain ⟨key, compiled⟩ := entry
    obtain ⟨otherKey, otherCompiled⟩ := other
    obtain ⟨rfl, both⟩ := first
    refine both.bind fun value otherValue _ holds => ?_
    exact ih.bind fun values otherValues _ following => .ok (.cons ⟨rfl, holds⟩ following)

namespace ObjectParts

theorem matchers_eq {patterns others : List (String × Compiled)}
    (agree : List.Forall₂ (Named (Except.Agree related)) patterns others) :
    matchers patterns = matchers others := by
  induction agree with
  | nil => rfl
  | @cons entry other _ _ first _ ih =>
    obtain ⟨key, compiled⟩ := entry
    obtain ⟨otherKey, otherCompiled⟩ := other
    obtain ⟨rfl, -⟩ := first
    rw [matchers, matchers, ih]

theorem groups_agree {options twinOptions : Options} {reserved otherReserved : List String}
    {texts : List (String × Pattern)} {patterns others : List (String × Compiled)}
    (limits : options.limits = twinOptions.limits) (same : reserved = otherReserved)
    (agree : List.Forall₂ (Named (Except.Agree related)) patterns others) :
    Except.Agree (List.Forall₂ (SameGroup options.limits reserved related))
      (groups options reserved texts patterns) (groups twinOptions otherReserved texts others) := by
  subst same
  induction agree with
  | nil => exact .ok .nil
  | @cons entry other _ _ first _ ih =>
    obtain ⟨text, compiled⟩ := entry
    obtain ⟨otherText, otherCompiled⟩ := other
    obtain ⟨rfl, both⟩ := first
    rw [groups, groups, ← limits]
    refine Except.Agree.bind_same fun keys synthesized => ?_
    refine both.bind fun values otherValues _ holds => ?_
    refine ih.bind fun later otherLater _ following => ?_
    obtain ⟨synthesizer, found, rfl⟩ :=
      Generator.patternOf_eq_ok.mp (Except.asInvalid_eq_ok.mp synthesized)
    exact .ok (.cons ⟨rfl, synthesizer, values, otherValues, _, found, rfl, rfl, holds⟩ following)

end ObjectParts

/-- One generator alone, or the choice among several. -/
theorem choiceOf_agree (label : String) (minimal : Option Nat) {alternatives others : List Generator}
    (choice : ∀ minimal, related (.choice label alternatives minimal) (.choice label others minimal))
    (each : List.Forall₂ related alternatives others) :
    Except.Agree related (Generator.choiceOf label alternatives minimal)
      (Generator.choiceOf label others minimal) := by
  unfold Generator.choiceOf
  rw [each.length_eq]
  cases each with
  | nil => exact .error
  | cons => exact .ok (choice _)

/-- The fields of two objects: those declared, then the required ones that are not. -/
theorem fields_named {parts others : ObjectParts} (agree : ObjectParts.Agree related parts others)
    (arbitrary : related compiler.arbitrary twin.arbitrary) {additional other : Option Generator}
    (extras : Option.Rel related additional other) {declared otherDeclared : List (String × Generator)}
    (fields : List.Forall₂ (Named related) declared otherDeclared) (required : List String) :
    List.Forall₂ (Named related)
      (declared ++ (parts.undeclared required).map fun key =>
        (key, additional.getD compiler.arbitrary))
      (otherDeclared ++ (others.undeclared required).map fun key =>
        (key, other.getD twin.arbitrary)) := by
  have undeclared : parts.undeclared required = others.undeclared required := by
    unfold ObjectParts.undeclared
    simp only [Entries.has_of_named agree.properties]
  have further : related (additional.getD compiler.arbitrary) (other.getD twin.arbitrary) := by
    cases extras with
    | none => exact arbitrary
    | some holds => exact holds
  rw [← undeclared]
  refine List.rel_append fields (List.forall₂_map_left_iff.mpr (List.forall₂_map_right_iff.mpr ?_))
  exact List.forall₂_same.mpr fun key _ => ⟨rfl, further⟩

/-- A record that stands alone, or the choice among several. -/
theorem records_agree {records others : List Generator}
    (choice : ∀ {label alternatives others minimal}, List.Forall₂ related alternatives others →
      related (.choice label alternatives minimal) (.choice label others minimal)) :
    List.Forall₂ related records others → Except.Agree related
      (match records with
        | [record] => pure record
        | records => Except.asInvalid (Generator.choiceOf "structural.object" records (some 0)))
      (match others with
        | [record] => pure record
        | records => Except.asInvalid (Generator.choiceOf "structural.object" records (some 0))) := by
  intro each
  cases each with
  | nil => exact (choiceOf_agree _ _ (fun _ => choice .nil) .nil).asInvalid
  | cons first rest =>
    cases rest with
    | nil => exact .ok first
    | cons second others =>
      have each := List.Forall₂.cons first (.cons second others)
      exact (choiceOf_agree _ _ (fun _ => choice each) each).asInvalid

theorem object_agree {parts others : ObjectParts} (agree : ObjectParts.Agree related parts others)
    (limits : compiler.options.limits = twin.options.limits)
    (arbitrary : related compiler.arbitrary twin.arbitrary)
    (choice : ∀ {label alternatives others minimal}, List.Forall₂ related alternatives others →
      related (.choice label alternatives minimal) (.choice label others minimal))
    (record : ∀ (pieces : ObjectPieces compiler parts) (otherPieces : ObjectPieces twin others),
      pieces.Compiled → pieces.Related related otherPieces →
      ∀ keys, related (pieces.record keys) (otherPieces.record keys)) :
    Except.Agree related (compiler.object parts) (twin.object others) := by
  have required := agree.required
  have dependencies := agree.dependencies
  obtain ⟨properties, _, extra, patterns, _⟩ := others
  subst required dependencies
  unfold object
  dsimp only
  rw [← Entries.names_eq_of_named agree.properties]
  split
  next => exact .error
  refine (optionally_agree agree.additional).bind fun additional other additionalOk extras => ?_
  refine (allCompiled_agree agree.properties).bind fun declared otherDeclared declaredOk fields => ?_
  have named := fields_named agree arbitrary extras fields parts.required.eraseDups
  rw [← ObjectParts.matchers_eq agree.patterns]
  refine Except.Agree.bind_same fun matchers matchersOk => ?_
  refine (ObjectParts.groups_agree limits (Entries.names_eq_of_named named) agree.patterns).bind
    fun groups otherGroups groupsOk grouped => ?_
  let pieces : ObjectPieces compiler parts := ⟨additional, declared, matchers, groups⟩
  let otherPieces : ObjectPieces twin
      ⟨properties, parts.required, extra, patterns, parts.dependencies⟩ :=
    ⟨other, otherDeclared, matchers, otherGroups⟩
  refine records_agree choice ?_
  refine List.forall₂_map_left_iff.mpr (List.forall₂_map_right_iff.mpr ?_)
  exact List.forall₂_same.mpr fun subset _ => record pieces otherPieces
    ⟨additionalOk, declaredOk, matchersOk, groupsOk⟩ ⟨extras, named, rfl, grouped⟩ _

/-- The members of two containers, which are numbered alike. -/
theorem memberFields_named {members others : List Generator} (each : List.Forall₂ related members others)
    (place : Nat) :
    List.Forall₂ (Named related) (memberFields place members) (memberFields place others) := by
  induction each generalizing place with
  | nil => exact .nil
  | cons first _ ih => exact .cons ⟨rfl, first⟩ (ih (place + 1))

/-! ## Nodes -/

/-- The ways to make generators of a node, all of which keep a relation between two compilers. -/
structure Keeps (compiler twin : Compiler) (related : Generator → Generator → Prop) (root : Node) :
    Prop where
  limits : compiler.options.limits = twin.options.limits
  leaf : ∀ node : Node, node.IsLeaf → node.Part root →
    Except.Agree related (compiler.compile node) (twin.compile node)
  arbitrary : related compiler.arbitrary twin.arbitrary
  array : ∀ {items others least most unique}, related items others →
    related (.array items least most unique) (.array others least most unique)
  tuple : ∀ {items others}, List.Forall₂ related items others →
    related (.tuple items) (.tuple others)
  choice : ∀ {label alternatives others minimal}, List.Forall₂ related alternatives others →
    related (.choice label alternatives minimal) (.choice label others minimal)
  merged : ∀ {members others}, List.Forall₂ related members others →
    related (compiler.merged members) (twin.merged others)
  record : ∀ spec : ObjectSpec Node, Node.Part (.object spec) root →
    ∀ (pieces : ObjectPieces compiler (compiler.parts spec))
      (others : ObjectPieces twin (twin.parts spec)), pieces.Compiled →
    pieces.Related related others → ∀ keys, related (pieces.record keys) (others.record keys)

theorem list_agree (bounds : ListBounds) {items others : Generator}
    (limits : compiler.options.limits = twin.options.limits)
    (array : ∀ {least most unique}, related (.array items least most unique)
      (.array others least most unique)) :
    Except.Agree related (compiler.list bounds items) (twin.list bounds others) := by
  unfold list Generator.arrayOf
  rw [← limits]
  refine Except.Agree.asInvalid ?_
  split
  · exact .error
  · exact .ok array

theorem compileAdditional_agree {additional : Additional Node}
    (arbitrary : related compiler.arbitrary twin.arbitrary)
    (inner : ∀ node, additional = .schema node →
      Except.Agree related (compiler.compile node) (twin.compile node)) :
    Option.Rel (Except.Agree related) (compiler.compileAdditional additional)
      (twin.compileAdditional additional) := by
  cases additional with
  | absent => exact .none
  | forbidden => exact .none
  | anything => exact .some (.ok arbitrary)
  | schema node => exact .some (inner node rfl)

theorem compile_entries_agree {entries : List (String × Node)}
    (inner : ∀ entry ∈ entries,
      Except.Agree related (compiler.compile entry.2) (twin.compile entry.2)) :
    List.Forall₂ (Named (Except.Agree related))
      (entries.map fun entry => (entry.1, compiler.compile entry.2))
      (entries.map fun entry => (entry.1, twin.compile entry.2)) := by
  refine List.forall₂_map_left_iff.mpr (List.forall₂_map_right_iff.mpr ?_)
  exact List.forall₂_same.mpr fun entry present => ⟨rfl, inner entry present⟩

theorem compile_agree {root : Node} (keeps : Keeps compiler twin related root) :
    Except.Agree related (compiler.compile root) (twin.compile root) := by
  suffices each : ∀ node : Node, node.Part root →
      Except.Agree related (compiler.compile node) (twin.compile node) from each root (.self root)
  intro node
  induction node using Node.induction with
  | step node ih =>
    intro below
    have inner : ∀ inner, Node.Inside inner node →
        Except.Agree related (compiler.compile inner) (twin.compile inner) :=
      fun inner inside => ih inner inside (below.inner inside)
    cases node with
    | list items bounds =>
      rw [compile_list, compile_list]
      exact (inner items .items).bind fun _ _ _ holds =>
        list_agree bounds keeps.limits (keeps.array holds)
    | tuple items =>
      rw [compile_tuple, compile_tuple]
      exact (Except.Agree.mapM fun item present => inner item (.component present)).bind
        fun _ _ _ each => .ok (keeps.tuple each)
    | object spec =>
      rw [compile_object, compile_object]
      refine object_agree ⟨?_, rfl, ?_, ?_, rfl⟩ keeps.limits keeps.arbitrary keeps.choice
        (keeps.record spec below)
      · exact compile_entries_agree fun entry present => inner entry.2 (.property present)
      · exact compileAdditional_agree keeps.arbitrary fun node same =>
          inner node (.additional same)
      · exact compile_entries_agree fun entry present => inner entry.2 (.patterned present)
    | anyOf members =>
      rw [compile_anyOf, compile_anyOf]
      exact (Except.Agree.mapM fun member present => inner member (.anyOf present)).bind
        fun _ _ _ each => (choiceOf_agree _ _ (fun _ => keeps.choice each) each).asInvalid
    | oneOf members =>
      rw [compile_oneOf, compile_oneOf]
      exact (Except.Agree.mapM fun member present => inner member (.oneOf present)).bind
        fun _ _ _ each => (choiceOf_agree _ _ (fun _ => keeps.choice each) each).asInvalid
    | allOf members =>
      rw [compile_allOf, compile_allOf]
      exact (Except.Agree.mapM fun member present => inner member (.allOf present)).bind
        fun _ _ _ each => .ok (keeps.merged each)
    | _ => exact keeps.leaf _ trivial below

end Compiler

end SchemaSampler
