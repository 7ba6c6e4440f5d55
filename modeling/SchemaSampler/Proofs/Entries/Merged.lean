import SchemaSampler.Proofs.Entries

/-!
# Merged entries

Entries of several sources are inserted into one map, source by source, and a later source replaces
what earlier ones have under the same name. `MergedFrom` says this of the map alone, without the
insertions that made it.

Results:
1. `MergedFrom.insertAll`: one more source.
2. `MergedFrom.foldl_insertAll`: any number of them.
3. `MergedFrom.perm_flatten`: sources without a common name are merged without a loss.
4. `insertAll_of_sorted`: entries inserted in the order of their names.
-/

namespace SchemaSampler

namespace Entries

variable {α β : Type}

/-! ## Sorted entries -/

theorem Sorted.mem_iff {entries : Entries α} (sorted : entries.Sorted) {name : String} {value : α} :
    (name, value) ∈ entries ↔ get? entries name = some value :=
  ⟨get?_eq_some_of_mem sorted.nodup_names, mem_of_get?_eq_some⟩

theorem Sorted.mem_insert_iff {entries : Entries α} (sorted : entries.Sorted) {name other : String}
    {value found : α} :
    (other, found) ∈ Entries.insert name value entries ↔
      other = name ∧ found = value ∨ other ≠ name ∧ (other, found) ∈ entries := by
  rw [(sorted.insert name value).mem_iff, get?_insert, sorted.mem_iff]
  by_cases same : other = name
  · simp [same, eq_comm]
  · simp [same]

theorem Sorted.insertAll {entries : Entries α} (sorted : entries.Sorted) (additions : Entries α) :
    (Entries.insertAll entries additions).Sorted := by
  induction additions generalizing entries with
  | nil => exact sorted
  | cons addition rest ih => exact ih (sorted.insert addition.1 addition.2)

theorem map_insertAll (entries additions : Entries α) (f : α → β) :
    (Entries.insertAll entries additions).map (fun entry => (entry.1, f entry.2)) =
      Entries.insertAll (entries.map fun entry => (entry.1, f entry.2))
        (additions.map fun entry => (entry.1, f entry.2)) := by
  induction additions generalizing entries with
  | nil => rfl
  | cons addition rest ih =>
    refine (ih _).trans ?_
    rw [map_insert]
    rfl

theorem map_ofList (pairs : List (String × α)) (f : α → β) :
    (ofList pairs).map (fun entry => (entry.1, f entry.2)) =
      ofList (pairs.map fun entry => (entry.1, f entry.2)) :=
  map_insertAll [] pairs f

theorem sorted_ofList (pairs : List (String × α)) : (ofList pairs).Sorted :=
  Sorted.insertAll .nil pairs

/-- An entry of the result is an addition, or an old one whose name no addition has. -/
theorem Sorted.of_mem_insertAll {entries : Entries α} (sorted : entries.Sorted)
    {additions : Entries α} {name : String} {value : α}
    (present : (name, value) ∈ Entries.insertAll entries additions) :
    (name, value) ∈ additions ∨ (name, value) ∈ entries ∧ name ∉ names additions := by
  induction additions generalizing entries with
  | nil => exact .inr ⟨present, List.not_mem_nil⟩
  | cons addition rest ih =>
    obtain ⟨added, new⟩ := addition
    rcases ih (sorted.insert added new) present with later | ⟨early, missing⟩
    · exact .inl (List.mem_cons_of_mem _ later)
    · rcases sorted.mem_insert_iff.mp early with ⟨rfl, rfl⟩ | ⟨different, old⟩
      · exact .inl List.mem_cons_self
      · exact .inr ⟨old, by simpa [names] using ⟨different, by simpa [names] using missing⟩⟩

theorem insert_of_above {entries : Entries α} {name : String} (value : α)
    (above : ∀ entry ∈ entries, entry.1 < name) :
    Entries.insert name value entries = entries ++ [(name, value)] := by
  induction entries with
  | nil => rfl
  | cons entry rest ih =>
    have below := above entry List.mem_cons_self
    rw [Entries.insert, if_neg (not_lt_of_gt below), if_neg (ne_of_gt below),
      ih fun other later => above other (List.mem_cons_of_mem _ later), List.cons_append]

/-- Additions that stand behind the entries in the order of names are appended. -/
theorem insertAll_of_sorted {entries additions : Entries α}
    (sorted : Sorted (entries ++ additions)) :
    Entries.insertAll entries additions = entries ++ additions := by
  induction additions generalizing entries with
  | nil => exact (List.append_nil entries).symm
  | cons addition rest ih =>
    obtain ⟨name, value⟩ := addition
    have above : ∀ entry ∈ entries, entry.1 < name := by
      intro entry present
      exact (List.pairwise_append.mp sorted).2.2 entry present (name, value) List.mem_cons_self
    have whole : entries ++ (name, value) :: rest = (entries ++ [(name, value)]) ++ rest := by simp
    have step : Entries.insertAll entries ((name, value) :: rest) =
        Entries.insertAll (Entries.insert name value entries) rest := rfl
    rw [step, insert_of_above value above, whole]
    exact ih (whole ▸ sorted)

theorem ofList_of_sorted {pairs : List (String × α)} (sorted : Sorted pairs) :
    ofList pairs = pairs :=
  @insertAll_of_sorted α [] pairs sorted

/-- The entry of the greatest name is the last one. -/
theorem Sorted.getLast?_eq {entries : Entries α} (sorted : entries.Sorted) {last : String × α}
    (present : last ∈ entries) (greatest : ∀ entry ∈ entries, ¬ last.1 < entry.1) :
    entries.getLast? = some last := by
  obtain ⟨front, behind, rfl⟩ := List.append_of_mem present
  cases behind with
  | nil => simp
  | cons next rest =>
    have order : last.1 < next.1 :=
      (List.pairwise_cons.mp (List.pairwise_append.mp sorted).2.1).1 next List.mem_cons_self
    exact absurd order (greatest next (by simp))

/-! ## Sources -/

theorem nodup_names_flatten {sources : List (Entries α)}
    (each : ∀ source ∈ sources, (names source).Nodup)
    (apart : sources.Pairwise fun source other =>
      ∀ name ∈ names source, name ∉ names other) :
    (names sources.flatten).Nodup := by
  rw [names, List.map_flatten, List.nodup_flatten]
  refine ⟨List.forall_mem_map.mpr each, List.pairwise_map.mpr (apart.imp fun clear => ?_)⟩
  exact List.disjoint_left.mpr fun name => clear name

/-- The entries of all sources, the last source's where several have the same name. -/
structure MergedFrom (sources : List (Entries α)) (entries : Entries α) : Prop where
  sorted : entries.Sorted
  names : ∀ name, name ∈ names entries ↔ ∃ source ∈ sources, name ∈ Entries.names source
  last : ∀ name value, (name, value) ∈ entries → ∃ earlier source later,
    sources = earlier ++ source :: later ∧ (name, value) ∈ source ∧
      ∀ other ∈ later, name ∉ Entries.names other

namespace MergedFrom

variable {sources : List (Entries α)} {entries : Entries α}

theorem single (sorted : entries.Sorted) : MergedFrom [entries] entries where
  sorted := sorted
  names := by simp
  last := fun _ _ present => ⟨[], entries, [], rfl, present, by simp⟩

theorem nil : MergedFrom ([] : List (Entries α)) [] where
  sorted := .nil
  names := by simp [Entries.names]
  last := by simp

/-- One more source. -/
theorem insertAll (merged : MergedFrom sources entries) (additions : Entries α) :
    MergedFrom (sources ++ [additions]) (Entries.insertAll entries additions) where
  sorted := merged.sorted.insertAll additions
  names := by
    intro name
    rw [mem_names_insertAll, merged.names]
    simp [or_and_right, exists_or]
  last := by
    intro name value present
    rcases merged.sorted.of_mem_insertAll present with new | ⟨old, missing⟩
    · exact ⟨sources, additions, [], rfl, new, by simp⟩
    · obtain ⟨earlier, source, later, rfl, inside, none⟩ := merged.last name value old
      refine ⟨earlier, source, later ++ [additions], by simp, inside, ?_⟩
      intro other listed
      rcases List.mem_append.mp listed with before | here
      · exact none other before
      · rwa [List.mem_singleton.mp here]

/-- Any number of further sources. -/
theorem foldl_insertAll (merged : MergedFrom sources entries) (further : List (Entries α)) :
    MergedFrom (sources ++ further) (further.foldl Entries.insertAll entries) := by
  induction further generalizing sources entries with
  | nil => simpa using merged
  | cons source rest ih => simpa using ih (merged.insertAll source)

theorem eq_nil_iff (merged : MergedFrom sources entries) :
    entries = [] ↔ ∀ source ∈ sources, source = [] := by
  have nameless : ∀ found : Entries α, found = [] ↔ ∀ name, name ∉ Entries.names found := by
    intro found
    rw [← List.eq_nil_iff_forall_not_mem, Entries.names, List.map_eq_nil_iff]
  simp only [nameless, merged.names, not_exists, not_and]
  exact ⟨fun none source among name => none name source among, fun none name source among =>
    none source among name⟩

theorem exists_source (merged : MergedFrom sources entries) {entry : String × α}
    (present : entry ∈ entries) : ∃ source ∈ sources, entry ∈ source := by
  obtain ⟨earlier, source, later, rfl, inside, -⟩ := merged.last entry.1 entry.2 present
  exact ⟨source, by simp, inside⟩

/-- Sources in which no name occurs twice are merged without a loss. -/
theorem perm_flatten (merged : MergedFrom sources entries)
    (distinct : (Entries.names sources.flatten).Nodup) : entries.Perm sources.flatten := by
  have each : sources.flatten.Nodup := List.Nodup.of_map _ distinct
  refine (List.perm_ext_iff_of_nodup (List.Nodup.of_map _ merged.sorted.nodup_names) each).mpr ?_
  rintro ⟨name, value⟩
  constructor
  · intro present
    exact List.mem_flatten.mpr (merged.exists_source present)
  · intro listed
    obtain ⟨source, among, inside⟩ := List.mem_flatten.mp listed
    obtain ⟨found, stands⟩ := exists_get?_of_mem_names
      ((merged.names name).mpr ⟨source, among, mem_names_of_mem inside⟩)
    have present := mem_of_get?_eq_some stands
    -- What stands under the name comes from some source, and only one entry there has the name.
    have also := get?_eq_some_of_mem distinct (List.mem_flatten.mpr (merged.exists_source present))
    cases also.symm.trans (get?_eq_some_of_mem distinct listed)
    exact present

end MergedFrom

theorem ofList_perm {pairs : List (String × α)} (distinct : (names pairs).Nodup) :
    (ofList pairs).Perm pairs := by
  have merged : MergedFrom [pairs] (ofList pairs) := MergedFrom.nil.insertAll pairs
  simpa using merged.perm_flatten (by simpa using distinct)

end Entries

end SchemaSampler
