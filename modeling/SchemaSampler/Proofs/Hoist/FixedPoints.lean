import SchemaSampler.Proofs.Hoist.Parts
import SchemaSampler.Proofs.Json.Sizes

/-!
# Fixed points of hoisting

Hoisting moves values and drops containers. It never adds a value, and it keeps their number only
where it has nothing to do, so it can be repeated only so often.

Results:
1. `HoistedParts.nodes_assemble_le`: an object has no more values than its parts.
2. `nodes_hoist_le`: hoisting adds no value.
3. `freeOf_of_nodes_le`: a value that does not shrink has no synthetic keys.
4. `hoist_fixed_points`: the fixed points are the values without synthetic keys, all others shrink.
-/

namespace SchemaSampler

open Validator

/-! ## Sizes of entries -/

namespace Entries

theorem memberNodes_insert_le (name : String) (value : Json) (entries : Entries Json) :
    memberNodes (entries.insert name value) ≤ nodes value + memberNodes entries := by
  induction entries with
  | nil => simp [insert, memberNodes]
  | cons entry rest ih =>
    obtain ⟨other, kept⟩ := entry
    rw [insert]
    split
    · exact Nat.le_refl _
    · split <;> simp only [memberNodes] <;> omega

theorem memberNodes_insertAll_le (entries additions : Entries Json) :
    memberNodes (entries.insertAll additions) ≤ memberNodes entries + memberNodes additions := by
  induction additions generalizing entries with
  | nil => exact Nat.le_refl _
  | cons addition rest ih =>
    obtain ⟨name, value⟩ := addition
    calc memberNodes (entries.insertAll ((name, value) :: rest))
        ≤ memberNodes (entries.insert name value) + memberNodes rest := ih _
      _ ≤ memberNodes entries + memberNodes ((name, value) :: rest) := by
          have inserted := memberNodes_insert_le name value entries
          rw [memberNodes]
          omega

theorem memberNodes_foldl_insertAll_le (groups : List (Entries Json)) (entries : Entries Json) :
    memberNodes (groups.foldl insertAll entries) ≤
      memberNodes entries + (groups.map memberNodes).sum := by
  induction groups generalizing entries with
  | nil => exact Nat.le_refl _
  | cons group rest ih =>
    calc memberNodes ((group :: rest).foldl insertAll entries)
        ≤ memberNodes (entries.insertAll group) + (rest.map memberNodes).sum := ih _
      _ ≤ memberNodes entries + ((group :: rest).map memberNodes).sum := by
          have inserted := memberNodes_insertAll_le entries group
          rw [List.map_cons, List.sum_cons]
          omega

end Entries

/-! ## Sizes of parts -/

namespace HoistedParts

/-- The number of values in the parts. -/
def nodes (parts : HoistedParts) : Nat :=
  memberNodes parts.ordinary + memberNodes parts.additional +
    (parts.groups.map memberNodes).sum + itemNodes (parts.merged.getD [])

theorem memberNodes_membersOf_le (value : Json) :
    memberNodes (membersOf value) ≤ Validator.nodes value := by
  cases value with
  | obj members => exact Nat.le_succ _
  | _ => exact Nat.zero_le _

theorem memberNodes_spliced_le (parts : HoistedParts) :
    memberNodes parts.spliced ≤ memberNodes parts.ordinary + memberNodes parts.additional +
      (parts.groups.map memberNodes).sum := by
  have groups := Entries.memberNodes_foldl_insertAll_le parts.groups
    (parts.ordinary.insertAll parts.additional)
  have additional := Entries.memberNodes_insertAll_le parts.ordinary parts.additional
  unfold spliced
  omega

theorem memberNodes_merged_le (members : List Json) (out : Entries Json) :
    memberNodes (members.foldl (fun all member => Entries.insertAll all (membersOf member)) out) ≤
      memberNodes out + itemNodes members := by
  have folded := Entries.memberNodes_foldl_insertAll_le (members.map membersOf) out
  have each : ((members.map membersOf).map memberNodes).sum ≤ itemNodes members := by
    rw [itemNodes_eq_sum, List.map_map]
    exact List.sum_le_sum fun member _ => memberNodes_membersOf_le member
  rw [List.foldl_map] at folded
  omega

/-- An object has no more values than its parts, in each of the forms that it can take. -/
theorem nodes_assemble_le (parts : HoistedParts) :
    Validator.nodes parts.assemble ≤ parts.nodes + 1 := by
  have spliced := memberNodes_spliced_le parts
  unfold assemble nodes
  dsimp only
  split
  next => rw [Validator.nodes]; omega
  next members found =>
    rw [found, Option.getD_some]
    split
    · -- The last member of the container stands for the object.
      cases last : members.getLast? with
      | none => simp only [Option.getD_none, Validator.nodes]; omega
      | some member =>
        have inside := nodes_le_itemNodes (List.mem_of_getLast? last)
        rw [Option.getD_some]
        omega
    · have merged := memberNodes_merged_le members parts.spliced
      rw [Validator.nodes]
      omega

end HoistedParts

/-! ## Hoisting adds no value -/

variable {keys : SyntheticKeys}

theorem memberNodes_hoistEntries_lt {raw : Json}
    (each : ∀ inner, nodes inner < nodes raw → nodes (hoist keys inner) ≤ nodes inner) :
    memberNodes (hoistEntries keys raw) < nodes raw := by
  cases raw with
  | obj members =>
    rw [hoistEntries, hoistMembers_eq_map, memberNodes_eq_sum, List.map_map, nodes,
      memberNodes_eq_sum]
    refine Nat.lt_succ_of_le (List.sum_le_sum fun member present => ?_)
    exact each member.2 (nodes_lt_of_member present)
  | _ => exact one_le_nodes _

theorem sum_hoistGroups_lt {raw : Json}
    (each : ∀ inner, nodes inner < nodes raw → nodes (hoist keys inner) ≤ nodes inner) :
    ((hoistGroups keys raw).map memberNodes).sum < nodes raw := by
  cases raw with
  | obj groups =>
    rw [hoistGroups, hoistGroupList_eq_map, List.map_map, nodes, memberNodes_eq_sum]
    refine Nat.lt_succ_of_le (List.sum_le_sum fun group present => ?_)
    have smaller := nodes_lt_of_member present
    exact (memberNodes_hoistEntries_lt fun inner below => each inner (below.trans smaller)).le
  | _ => exact one_le_nodes _

theorem itemNodes_hoistContainer_lt {raw : Json}
    (each : ∀ inner, nodes inner < nodes raw → nodes (hoist keys inner) ≤ nodes inner) :
    itemNodes ((hoistContainer keys raw).getD []) < nodes raw := by
  cases raw with
  | obj members =>
    rw [hoistContainer, hoistValues_eq_map, Option.getD_some, itemNodes_eq_sum, List.map_map, nodes,
      memberNodes_eq_sum]
    refine Nat.lt_succ_of_le (List.sum_le_sum fun member present => ?_)
    exact each member.2 (nodes_lt_of_member present)
  | _ => exact one_le_nodes _

/-- A member adds to the parts no more values than it has, and fewer under a synthetic key. -/
theorem nodes_hoistParts_cons (key : String) (value : Json) (rest : List (String × Json))
    (each : ∀ inner, nodes inner ≤ nodes value → nodes (hoist keys inner) ≤ nodes inner) :
    (keys.contains key = true ∧
      (hoistParts keys ((key, value) :: rest)).nodes < (hoistParts keys rest).nodes + nodes value) ∨
    (keys.contains key = false ∧
      (hoistParts keys ((key, value) :: rest)).nodes =
        (hoistParts keys rest).nodes + nodes (hoist keys value)) := by
  have smaller : ∀ inner, nodes inner < nodes value → nodes (hoist keys inner) ≤ nodes inner :=
    fun inner below => each inner below.le
  rcases hoistParts_cons keys key value rest with ⟨here, parts⟩ | ⟨here, parts⟩ | ⟨here, parts⟩ |
    ⟨ordinary, parts⟩
  · have entries := memberNodes_hoistEntries_lt smaller
    refine .inl ⟨by simp [here], ?_⟩
    simp only [parts, HoistedParts.nodes]
    omega
  · have groups := sum_hoistGroups_lt smaller
    refine .inl ⟨by simp [here], ?_⟩
    simp only [parts, HoistedParts.nodes]
    omega
  · have merged := itemNodes_hoistContainer_lt smaller
    refine .inl ⟨by simp [here], ?_⟩
    simp only [parts, HoistedParts.nodes]
    omega
  · refine .inr ⟨ordinary, ?_⟩
    simp only [parts, HoistedParts.nodes, memberNodes]
    omega

theorem nodes_hoistParts_le {members : List (String × Json)}
    (each : ∀ inner, nodes inner ≤ memberNodes members → nodes (hoist keys inner) ≤ nodes inner) :
    (hoistParts keys members).nodes ≤ memberNodes members := by
  induction members with
  | nil => exact Nat.le_refl 0
  | cons member rest ih =>
    obtain ⟨key, value⟩ := member
    rw [memberNodes] at each ⊢
    have later := ih fun inner below => each inner (by omega)
    have head := nodes_hoistParts_cons key value rest fun inner below => each inner (by omega)
    have hoisted := each value (by omega)
    omega

/-- Hoisting adds no value. -/
theorem nodes_hoist_le (keys : SyntheticKeys) (value : Json) :
    nodes (hoist keys value) ≤ nodes value := by
  induction size : nodes value using Nat.strong_induction_on generalizing value with
  | _ count ih =>
    subst size
    cases value with
    | arr items =>
      rw [hoist, hoistItems_eq_map, nodes, nodes, itemNodes_eq_sum, itemNodes_eq_sum, List.map_map]
      refine Nat.succ_le_succ (List.sum_le_sum fun item present => ?_)
      exact ih _ (nodes_lt_of_item present) item rfl
    | obj members =>
      rw [hoist]
      have parts := nodes_hoistParts_le fun inner below => ih _ (Nat.lt_succ_of_le below) inner rfl
      have assembled := (hoistParts keys members).nodes_assemble_le
      rw [nodes]
      omega
    | _ => exact Nat.le_refl _

/-! ## What does not shrink -/

/-- Parts that keep all values of the members come from ordinary members that keep theirs. -/
theorem ordinary_of_nodes_le {members : List (String × Json)}
    (kept : memberNodes members ≤ (hoistParts keys members).nodes) :
    ∀ member ∈ members, keys.contains member.1 = false ∧
      nodes member.2 ≤ nodes (hoist keys member.2) := by
  induction members with
  | nil => exact fun _ absent => nomatch absent
  | cons member rest ih =>
    obtain ⟨key, value⟩ := member
    have later : (hoistParts keys rest).nodes ≤ memberNodes rest :=
      nodes_hoistParts_le fun inner _ => nodes_hoist_le keys inner
    have hoisted := nodes_hoist_le keys value
    rw [memberNodes] at kept
    rcases nodes_hoistParts_cons key value rest fun inner _ => nodes_hoist_le keys inner with
      ⟨-, fewer⟩ | ⟨ordinary, same⟩
    · omega
    · have unchanged : nodes value ≤ nodes (hoist keys value) := by omega
      intro other present
      rcases List.mem_cons.mp present with rfl | behind
      · exact ⟨ordinary, unchanged⟩
      · exact ih (by omega) other behind

theorem nodes_le_of_sum_le {items : List Json}
    (kept : itemNodes items ≤ itemNodes (items.map (hoist keys))) :
    ∀ item ∈ items, nodes item ≤ nodes (hoist keys item) := by
  induction items with
  | nil => exact fun _ absent => nomatch absent
  | cons item rest ih =>
    have first := nodes_hoist_le keys item
    have later : itemNodes (rest.map (hoist keys)) ≤ itemNodes rest := by
      rw [itemNodes_eq_sum, itemNodes_eq_sum, List.map_map]
      exact List.sum_le_sum fun other _ => nodes_hoist_le keys other
    rw [List.map_cons, itemNodes, itemNodes] at kept
    intro other present
    rcases List.mem_cons.mp present with rfl | behind
    · omega
    · exact ih (by omega) other behind

/-- A value that keeps all its values when it is hoisted has no synthetic keys. -/
theorem freeOf_of_nodes_le {value : Json} (kept : nodes value ≤ nodes (hoist keys value)) :
    value.FreeOf keys := by
  induction size : nodes value using Nat.strong_induction_on generalizing value with
  | _ count ih =>
    subst size
    cases value with
    | null => exact .null
    | bool => exact .bool
    | int => exact .int
    | float => exact .float
    | str => exact .str
    | arr items =>
      rw [hoist, hoistItems_eq_map, nodes, nodes] at kept
      refine .arr fun item present => ?_
      exact ih _ (nodes_lt_of_item present) (nodes_le_of_sum_le (by omega) item present) rfl
    | obj members =>
      rw [hoist, nodes] at kept
      have assembled := (hoistParts keys members).nodes_assemble_le
      have each := ordinary_of_nodes_le (show memberNodes members ≤ (hoistParts keys members).nodes by
        omega)
      refine .obj (fun member present => (each member present).1) fun member present => ?_
      exact ih _ (nodes_lt_of_member present) (each member present).2 rfl

theorem nodes_hoist_lt {value : Json} (found : ¬ value.FreeOf keys) :
    nodes (hoist keys value) < nodes value :=
  Nat.lt_of_not_le fun kept => found (freeOf_of_nodes_le kept)

/-! ## Repeated hoisting -/

/-- Every round shrinks the value or finds nothing left to do. -/
theorem freeOf_iterate_hoist {value : Json} {rounds : Nat} (enough : nodes value ≤ rounds) :
    ((hoist keys)^[rounds] value).FreeOf keys := by
  induction rounds generalizing value with
  | zero =>
    have positive := one_le_nodes value
    omega
  | succ rounds ih =>
    rw [Function.iterate_succ_apply]
    by_cases free : value.FreeOf keys
    · rw [hoist_of_freeOf free, Function.iterate_fixed (hoist_of_freeOf free)]
      exact free
    · have shrunk := nodes_hoist_lt free
      exact ih (by omega)

/-- Hoisting leaves alone exactly the values without synthetic keys and shrinks all others, so as
many rounds as a value has values inside leave no synthetic key. -/
theorem hoist_fixed_points (keys : SyntheticKeys) (value : Json) :
    (hoist keys value = value ↔ value.FreeOf keys) ∧
      (¬ value.FreeOf keys → nodes (hoist keys value) < nodes value) ∧
      ∀ rounds, nodes value ≤ rounds → ((hoist keys)^[rounds] value).FreeOf keys := by
  refine ⟨⟨fun fixed => ?_, hoist_of_freeOf⟩, nodes_hoist_lt, fun _ => freeOf_iterate_hoist⟩
  exact freeOf_of_nodes_le (by rw [fixed])

end SchemaSampler
