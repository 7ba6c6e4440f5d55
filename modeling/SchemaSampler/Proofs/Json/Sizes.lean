import Mathlib
import SchemaSampler.Validity.MetaSchema

/-!
# Sizes of values

The values inside a value are counted with it. A count over a list is the sum of the counts of its
members, so no part has more values than the whole.
-/

namespace SchemaSampler

namespace Validator

theorem itemNodes_eq_sum (items : List Json) : itemNodes items = (items.map nodes).sum := by
  induction items with
  | nil => rfl
  | cons item rest ih => simp [itemNodes, ih]

theorem memberNodes_eq_sum (members : List (String × Json)) :
    memberNodes members = (members.map fun member => nodes member.2).sum := by
  induction members with
  | nil => rfl
  | cons member rest ih => simp [memberNodes, ih]

theorem one_le_nodes (value : Json) : 1 ≤ nodes value := by
  cases value <;> simp [nodes]

theorem nodes_le_itemNodes {items : List Json} {item : Json} (present : item ∈ items) :
    nodes item ≤ itemNodes items := by
  rw [itemNodes_eq_sum]
  exact List.single_le_sum (by simp) _ (List.mem_map_of_mem present)

theorem nodes_le_memberNodes {members : List (String × Json)} {name : String} {value : Json}
    (present : (name, value) ∈ members) : nodes value ≤ memberNodes members := by
  rw [memberNodes_eq_sum]
  exact List.single_le_sum (by simp) _ (List.mem_map.mpr ⟨(name, value), present, rfl⟩)

theorem length_le_memberNodes (members : List (String × Json)) :
    members.length ≤ memberNodes members := by
  induction members with
  | nil => exact Nat.le_refl 0
  | cons member rest ih =>
    have positive := one_le_nodes member.2
    rw [List.length_cons, memberNodes]
    omega

theorem nodes_lt_of_item {items : List Json} {item : Json} (present : item ∈ items) :
    nodes item < nodes (.arr items) :=
  Nat.lt_succ_of_le (nodes_le_itemNodes present)

theorem nodes_lt_of_member {members : List (String × Json)} {name : String} {value : Json}
    (present : (name, value) ∈ members) : nodes value < nodes (.obj members) :=
  Nat.lt_succ_of_le (nodes_le_memberNodes present)

end Validator

end SchemaSampler
