import Mathlib

/-!
# First occurrences in lists

Of equal items of a list only the first one is kept. What is kept of a list is kept of a longer one
as well, at the same places.

Results:
1. `eraseDups_concat`: one more item stays if it is new.
2. `nodup_eraseDups`, `length_eraseDups_le`: no item stays twice, and so there are no more than before.
3. `eraseDups_prefix`: a longer list begins with the same first occurrences.
-/

namespace SchemaSampler

section Occurrences

variable {α : Type}

theorem eraseDupsBy_loop_concat {same : α → α → Bool} {items found : List α} {item : α} :
    List.eraseDupsBy.loop same (items ++ [item]) found =
      if (List.eraseDupsBy.loop same items found).any (same item) then
        List.eraseDupsBy.loop same items found
      else List.eraseDupsBy.loop same items found ++ [item] := by
  induction items generalizing found with
  | nil =>
    simp only [List.nil_append, List.eraseDupsBy.loop, List.any_reverse]
    cases found.any (same item) <;> simp
  | cons first items ih =>
    cases known : found.any (same first) <;>
      simpa only [List.cons_append, List.eraseDupsBy.loop, known] using ih

variable [BEq α] [LawfulBEq α]

theorem eraseDups_concat {items : List α} {item : α} :
    (items ++ [item]).eraseDups =
      if item ∈ items then items.eraseDups else items.eraseDups ++ [item] := by
  have known : items.eraseDups.any (item == ·) = true ↔ item ∈ items := by
    rw [List.any_beq, List.elem_iff, List.mem_eraseDups]
  refine eraseDupsBy_loop_concat.trans ?_
  exact if_congr known rfl rfl

theorem nodup_eraseDups (items : List α) : items.eraseDups.Nodup := by
  cases items with
  | nil => exact List.nodup_nil
  | cons item rest =>
    -- The first item stays, and the rest loses all others like it.
    rw [List.eraseDups_cons, List.nodup_cons, List.mem_eraseDups]
    exact ⟨by simp, nodup_eraseDups (rest.filter fun other => !other == item)⟩
termination_by items.length
decreasing_by exact Nat.lt_succ_of_le (List.length_filter_le _ _)

theorem length_eraseDups_le (items : List α) : items.eraseDups.length ≤ items.length :=
  ((nodup_eraseDups items).subperm fun _ => List.mem_eraseDups.mp).length_le

theorem eraseDups_prefix (items later : List α) :
    items.eraseDups <+: (items ++ later).eraseDups := by
  rw [List.eraseDups_append]
  exact List.prefix_append _ _

end Occurrences

end SchemaSampler
