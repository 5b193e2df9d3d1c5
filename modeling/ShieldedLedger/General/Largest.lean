import Mathlib.Algebra.Order.BigOperators.Group.List
import Mathlib.Algebra.Order.Monoid.Canonical.Defs
import Mathlib.Data.List.Perm.Subperm

/-!
# The largest items of a list

A choice of items from a list is a sub-permutation of it.  No choice is worth more than
the whole list, and none of a bounded number of items is worth more than as many items
from the front of the list in descending order.
-/

namespace Largest

variable {α M : Type} [AddCommMonoid M] [LinearOrder M] [IsOrderedAddMonoid M]
variable [CanonicallyOrderedAdd M] {value : α → M}

/-- A choice is worth at most the whole. -/
theorem sum_le_of_subperm {chosen items : List α} (choice : chosen.Subperm items) :
    (chosen.map value).sum ≤ (items.map value).sum := by
  obtain ⟨ordered, perm, part⟩ := choice
  rw [← (perm.map value).sum_eq]
  exact (part.map value).sum_le_sum fun _ _ => zero_le

/-- In descending order the front is worth at least any choice of its length. -/
theorem sum_le_sum_take {sorted : List α}
    (descending : sorted.Pairwise fun left right => value right ≤ value left) :
    ∀ {chosen : List α} {count : ℕ}, chosen.Sublist sorted → chosen.length ≤ count →
      (chosen.map value).sum ≤ ((sorted.take count).map value).sum := by
  induction sorted with
  | nil =>
      intro chosen count choice _
      rw [List.sublist_nil.mp choice]
      exact zero_le
  | cons head rest ih =>
      intro chosen count choice few
      have later := List.Pairwise.of_cons descending
      cases chosen with
      | nil => exact zero_le
      | cons first others =>
          cases count with
          | zero => exact absurd few (Nat.not_succ_le_zero _)
          | succ count =>
              -- whichever item comes first, the others come from the rest
              have split : value first ≤ value head ∧ others.Sublist rest := by
                cases choice with
                | cons _ skipped =>
                    exact ⟨List.rel_of_pairwise_cons descending
                      (skipped.subset (List.mem_cons_self ..)),
                      List.sublist_of_cons_sublist skipped⟩
                | cons_cons _ taken => exact ⟨le_rfl, taken⟩
              rw [List.take_succ_cons, List.map_cons, List.map_cons, List.sum_cons,
                List.sum_cons]
              exact add_le_add split.1 (ih later split.2 (Nat.le_of_succ_le_succ few))

/-- The front in descending order is the best choice of its length. -/
theorem sum_le_of_few {items sorted chosen : List α} {count : ℕ}
    (descending : sorted.Pairwise fun left right => value right ≤ value left)
    (same : sorted.Perm items) (choice : chosen.Subperm items) (few : chosen.length ≤ count) :
    (chosen.map value).sum ≤ ((sorted.take count).map value).sum := by
  obtain ⟨ordered, perm, part⟩ := choice.trans same.symm.subperm
  rw [← (perm.map value).sum_eq]
  exact sum_le_sum_take descending part (perm.length_eq.trans_le few)

end Largest
