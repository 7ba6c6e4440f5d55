import Mathlib
import SchemaSampler.Entries

/-!
# Lookup and membership of entries

What an entry map holds after insertions, and what it finds under a name. Only the statements about
order need the entries to be sorted.

Results:
1. `get?_insert`: an insertion changes what is found under its own name only.
2. `mem_of_mem_insert`, `mem_of_mem_ofList`, `mem_of_mem_insertAll`: insertions invent nothing.
3. `mem_names_insertAll`: they lose no name.
4. `Sorted.insert`, `map_insert`, `Sorted.filter_insert`: they keep the order, and go together with
   maps and filters.
-/

namespace SchemaSampler

namespace Entries

variable {α β : Type}

/-! ## Lookup -/

theorem get?_cons (name other : String) (value : α) (rest : Entries α) :
    get? ((name, value) :: rest) other = if other = name then some value else get? rest other := by
  by_cases same : other = name
  · simp [get?, List.lookup, same]
  · have different : (other == name) = false := by simpa using same
    simp [get?, List.lookup, different, same]

theorem get?_cons_self (name : String) (value : α) (rest : Entries α) :
    get? ((name, value) :: rest) name = some value := by
  rw [get?_cons, if_pos rfl]

theorem get?_append (entries others : Entries α) (name : String) :
    get? (entries ++ others) name = (get? entries name).or (get? others name) := by
  induction entries with
  | nil => rfl
  | cons entry rest ih =>
    obtain ⟨other, value⟩ := entry
    rw [List.cons_append, get?_cons, get?_cons, ih]
    split <;> rfl

theorem get?_insert (name other : String) (value : α) (entries : Entries α) :
    get? (insert name value entries) other =
      if other = name then some value else get? entries other := by
  induction entries with
  | nil => rw [insert, get?_cons]
  | cons entry rest ih =>
    obtain ⟨kept, present⟩ := entry
    rw [insert]
    split
    · rw [get?_cons]
    · split
      next _ same =>
        subst same
        rw [get?_cons, get?_cons]
        split <;> rfl
      next _ different =>
        rw [get?_cons, get?_cons, ih]
        by_cases first : other = kept
        · have later : other ≠ name := fun same => different (same.symm.trans first)
          rw [if_pos first, if_neg later, if_pos first]
        · rw [if_neg first, if_neg first]

theorem mem_of_get?_eq_some {entries : Entries α} {name : String} {value : α}
    (found : get? entries name = some value) : (name, value) ∈ entries := by
  induction entries with
  | nil => cases found
  | cons entry rest ih =>
    obtain ⟨other, kept⟩ := entry
    rw [get?_cons] at found
    split at found
    next same =>
      cases found
      rw [same]
      exact List.mem_cons_self
    next => exact List.mem_cons_of_mem _ (ih found)

theorem mem_names_of_mem {entries : Entries α} {name : String} {value : α}
    (present : (name, value) ∈ entries) : name ∈ names entries :=
  List.mem_map.mpr ⟨(name, value), present, rfl⟩

theorem get?_eq_none_iff {entries : Entries α} {name : String} :
    get? entries name = none ↔ name ∉ names entries := by
  induction entries with
  | nil => simp [get?, names]
  | cons entry rest ih =>
    obtain ⟨other, kept⟩ := entry
    rw [get?_cons, names, List.map_cons, List.mem_cons, not_or, ← names, ← ih]
    split
    next same => simp [same]
    next different => simp [different]

theorem exists_get?_of_mem_names {entries : Entries α} {name : String}
    (present : name ∈ names entries) : ∃ value, get? entries name = some value := by
  cases found : get? entries name with
  | some value => exact ⟨value, rfl⟩
  | none => exact absurd present (get?_eq_none_iff.mp found)

/-- Among different names the first entry of a name is the only one. -/
theorem get?_eq_some_of_mem {entries : Entries α} {name : String} {value : α}
    (distinct : (names entries).Nodup) (present : (name, value) ∈ entries) :
    get? entries name = some value := by
  induction entries with
  | nil => cases present
  | cons entry rest ih =>
    obtain ⟨other, kept⟩ := entry
    rw [names, List.map_cons, List.nodup_cons] at distinct
    rw [get?_cons]
    cases List.mem_cons.mp present with
    | inl same =>
      cases same
      rw [if_pos rfl]
    | inr later =>
      have different : name ≠ other := by
        intro same
        have listed : name ∈ rest.map Prod.fst := List.mem_map_of_mem later
        exact distinct.1 (same ▸ listed)
      rw [if_neg different]
      exact ih distinct.2 later

theorem get?_map (entries : Entries α) (name : String) (f : α → β) :
    get? (entries.map fun entry => (entry.1, f entry.2)) name = (get? entries name).map f := by
  induction entries with
  | nil => rfl
  | cons entry rest ih =>
    obtain ⟨other, kept⟩ := entry
    rw [List.map_cons, get?_cons, get?_cons, ih]
    split <;> rfl

theorem has_iff_mem_names {entries : Entries α} {name : String} :
    has entries name = true ↔ name ∈ names entries := by
  simp [has, names]

/-! ## Membership -/

theorem mem_of_mem_insert {name : String} {value : α} {entries : Entries α} {pair : String × α}
    (present : pair ∈ insert name value entries) : pair = (name, value) ∨ pair ∈ entries := by
  induction entries with
  | nil => exact .inl (List.mem_singleton.mp present)
  | cons entry rest ih =>
    obtain ⟨other, kept⟩ := entry
    rw [insert] at present
    split at present
    · exact List.mem_cons.mp present
    · split at present
      · cases List.mem_cons.mp present with
        | inl same => exact .inl same
        | inr later => exact .inr (List.mem_cons_of_mem _ later)
      · cases List.mem_cons.mp present with
        | inl same => exact .inr (same ▸ List.mem_cons_self)
        | inr later =>
          cases ih later with
          | inl same => exact .inl same
          | inr old => exact .inr (List.mem_cons_of_mem _ old)

theorem mem_names_insert {name other : String} {value : α} {entries : Entries α} :
    other ∈ names (insert name value entries) ↔ other = name ∨ other ∈ names entries := by
  have missing : get? (insert name value entries) other = none ↔
      ¬ (other = name ∨ other ∈ names entries) := by
    rw [get?_insert, not_or, ← get?_eq_none_iff]
    split
    next same => simp [same]
    next different => simp [different]
  rw [get?_eq_none_iff] at missing
  exact Decidable.not_iff_not.mp missing

theorem length_insert_le (name : String) (value : α) (entries : Entries α) :
    (insert name value entries).length ≤ entries.length + 1 := by
  induction entries with
  | nil => exact Nat.le_refl 1
  | cons entry rest ih =>
    obtain ⟨other, kept⟩ := entry
    rw [insert]
    split
    · simp
    · split
      · simp
      · simpa using ih

theorem length_le_length_insert (name : String) (value : α) (entries : Entries α) :
    entries.length ≤ (insert name value entries).length := by
  induction entries with
  | nil => exact Nat.zero_le _
  | cons entry rest ih =>
    obtain ⟨other, kept⟩ := entry
    rw [insert]
    split
    · simp
    · split
      · simp
      · simpa using ih

theorem mem_of_mem_insertAll {entries additions : Entries α} {pair : String × α}
    (present : pair ∈ insertAll entries additions) : pair ∈ entries ∨ pair ∈ additions := by
  induction additions generalizing entries with
  | nil => exact .inl present
  | cons addition rest ih =>
    cases ih present with
    | inr later => exact .inr (List.mem_cons_of_mem _ later)
    | inl early =>
      cases mem_of_mem_insert early with
      | inl same => exact .inr (same ▸ List.mem_cons_self)
      | inr old => exact .inl old

theorem mem_names_insertAll {entries additions : Entries α} {name : String} :
    name ∈ names (insertAll entries additions) ↔ name ∈ names entries ∨ name ∈ names additions := by
  induction additions generalizing entries with
  | nil => simp [insertAll, names]
  | cons addition rest ih =>
    have step : insertAll entries (addition :: rest) =
        insertAll (insert addition.1 addition.2 entries) rest := rfl
    rw [step, ih, mem_names_insert, or_comm (a := name = addition.1), or_assoc]
    simp [names]

theorem mem_of_mem_foldl_insertAll {entries : Entries α} {groups : List (Entries α)}
    {pair : String × α} (present : pair ∈ groups.foldl insertAll entries) :
    pair ∈ entries ∨ ∃ group ∈ groups, pair ∈ group := by
  induction groups generalizing entries with
  | nil => exact .inl present
  | cons group rest ih =>
    rcases ih present with early | ⟨other, listed, inside⟩
    · rcases mem_of_mem_insertAll early with old | new
      · exact .inl old
      · exact .inr ⟨group, List.mem_cons_self, new⟩
    · exact .inr ⟨other, List.mem_cons_of_mem _ listed, inside⟩

theorem mem_names_foldl_insertAll_iff {entries : Entries α} {groups : List (Entries α)}
    {name : String} : name ∈ names (groups.foldl insertAll entries) ↔
      name ∈ names entries ∨ ∃ group ∈ groups, name ∈ names group := by
  induction groups generalizing entries with
  | nil => simp
  | cons group rest ih =>
    rw [List.foldl_cons, ih, mem_names_insertAll, or_assoc, List.exists_mem_cons_iff]

theorem mem_names_foldl_insertAll {entries : Entries α} {name : String}
    (present : name ∈ names entries) (groups : List (Entries α)) :
    name ∈ names (groups.foldl insertAll entries) :=
  mem_names_foldl_insertAll_iff.mpr (.inl present)

theorem ofList_eq_insertAll (pairs : List (String × α)) : ofList pairs = insertAll [] pairs := rfl

theorem mem_of_mem_ofList {pairs : List (String × α)} {pair : String × α}
    (present : pair ∈ ofList pairs) : pair ∈ pairs := by
  cases mem_of_mem_insertAll present with
  | inl early => cases early
  | inr listed => exact listed

theorem mem_names_ofList {pairs : List (String × α)} {name : String} :
    name ∈ names (ofList pairs) ↔ name ∈ names pairs := by
  rw [ofList_eq_insertAll, mem_names_insertAll]
  simp [names]

theorem mem_insert_of_mem {name : String} {value : α} {entries : Entries α} {pair : String × α}
    (present : pair ∈ entries) (different : pair.1 ≠ name) : pair ∈ insert name value entries := by
  induction entries with
  | nil => cases present
  | cons entry rest ih =>
    obtain ⟨other, kept⟩ := entry
    rw [insert]
    split
    · exact List.mem_cons_of_mem _ present
    · split
      next same =>
        rcases List.mem_cons.mp present with rfl | later
        · exact absurd same.symm different
        · exact List.mem_cons_of_mem _ later
      next =>
        rcases List.mem_cons.mp present with rfl | later
        · exact List.mem_cons_self
        · exact List.mem_cons_of_mem _ (ih later)

/-! ## Order -/

theorem map_insert (name : String) (value : α) (entries : Entries α) (f : α → β) :
    (insert name value entries).map (fun entry => (entry.1, f entry.2)) =
      insert name (f value) (entries.map fun entry => (entry.1, f entry.2)) := by
  induction entries with
  | nil => rfl
  | cons entry rest ih =>
    obtain ⟨other, kept⟩ := entry
    rw [List.map_cons, insert, insert]
    split
    · rfl
    · split
      · rfl
      · rw [List.map_cons, ih]

theorem Sorted.nodup_names {entries : Entries α} (sorted : entries.Sorted) :
    (names entries).Nodup :=
  List.pairwise_map.mpr (sorted.imp fun below => ne_of_lt below)

theorem Sorted.insert {entries : Entries α} (sorted : entries.Sorted) (name : String) (value : α) :
    (Entries.insert name value entries).Sorted := by
  induction entries with
  | nil => exact List.pairwise_singleton _ _
  | cons entry rest ih =>
    obtain ⟨other, kept⟩ := entry
    obtain ⟨first, later⟩ := List.pairwise_cons.mp sorted
    rw [Entries.insert]
    split
    next before =>
      refine List.pairwise_cons.mpr ⟨fun pair present => ?_, sorted⟩
      rcases List.mem_cons.mp present with rfl | behind
      · exact before
      · exact before.trans (first pair behind)
    next notBefore =>
      split
      next same =>
        subst same
        exact List.pairwise_cons.mpr ⟨first, later⟩
      next different =>
        refine List.pairwise_cons.mpr ⟨fun pair present => ?_, ih later⟩
        rcases mem_of_mem_insert present with rfl | behind
        · exact lt_of_le_of_ne (le_of_not_gt notBefore) fun same => different same.symm
        · exact first pair behind

/-- An entry whose name comes first stands first. -/
theorem insert_eq_cons {name : String} {value : α} {entries : Entries α}
    (first : ∀ entry ∈ entries, name < entry.1) :
    insert name value entries = (name, value) :: entries := by
  cases entries with
  | nil => rfl
  | cons entry rest => exact if_pos (first entry List.mem_cons_self)

/-- What a filter on names keeps of an insertion. -/
theorem Sorted.filter_insert {entries : Entries α} (sorted : entries.Sorted) (name : String)
    (value : α) (keep : String → Bool) :
    (Entries.insert name value entries).filter (fun entry => keep entry.1) =
      if keep name then Entries.insert name value (entries.filter fun entry => keep entry.1)
      else entries.filter fun entry => keep entry.1 := by
  induction entries with
  | nil => simp [Entries.insert, List.filter_cons]
  | cons entry rest ih =>
    obtain ⟨other, kept⟩ := entry
    obtain ⟨first, later⟩ := List.pairwise_cons.mp sorted
    rw [Entries.insert]
    split
    next before =>
      -- The new entry comes before all others, so it also does among those that are kept.
      have least : ∀ entry ∈ ((other, kept) :: rest).filter fun entry => keep entry.1,
          name < entry.1 := by
        intro entry present
        rcases List.mem_cons.mp (List.mem_of_mem_filter present) with rfl | behind
        · exact before
        · exact before.trans (first entry behind)
      rw [insert_eq_cons least, List.filter_cons]
    next notBefore =>
      split
      next same =>
        subst same
        cases kept : keep name <;> simp [kept, Entries.insert]
      next different =>
        rw [List.filter_cons, List.filter_cons, ih later]
        cases keep other with
        | false => simp
        | true => cases keep name <;> simp [Entries.insert, notBefore, different]

end Entries

end SchemaSampler
