import Mathlib.Data.Vector.Basic
import Mathlib.Tactic.Ring

/-!
# Blocks of one size, laid out one after the other

Where the parts of a layout stand, and when two layouts agree.
-/

namespace Blocks

variable {α β : Type} {size : ℕ}

/-- The part of a block stands behind all earlier blocks. -/
theorem getElem?_flatMap (block : α → List.Vector β size) (j : Fin size) {items : List α}
    {item : α} :
    ∀ {i : ℕ}, items[i]? = some item →
      (items.flatMap fun item => (block item).toList)[size * i + j]? =
        some ((block item).get j) := by
  induction items with
  | nil => exact fun found => nomatch found
  | cons first rest ih =>
      intro i found
      have length := (block first).toList_length
      rw [List.flatMap_cons]
      cases i with
      | zero =>
          obtain rfl := Option.some.inj found
          have inside : size * 0 + j < (block first).toList.length := by
            rw [length, Nat.mul_zero, Nat.zero_add]
            exact j.isLt
          rw [List.getElem?_append_left inside]
          simp [List.Vector.get_eq_get_toList]
      | succ i =>
          have later : size * (i + 1) + j = (block first).toList.length + (size * i + j) := by
            rw [length, Nat.mul_succ]
            omega
          rw [later, List.getElem?_append_right (Nat.le_add_right _ _), Nat.add_sub_cancel_left]
          exact ih found

theorem length_flatMap (block : α → List.Vector β size) (items : List α) :
    (items.flatMap fun item => (block item).toList).length = size * items.length := by
  simp [List.length_flatMap, Nat.mul_comm]

/-- As many blocks that lay out alike are the same blocks. -/
theorem flatMap_inj {left right : List (List.Vector β size)} (lengths : left.length = right.length)
    (equal : left.flatMap List.Vector.toList = right.flatMap List.Vector.toList) :
    left = right := by
  induction left generalizing right with
  | nil => exact (List.length_eq_zero_iff.mp lengths.symm).symm
  | cons item rest ih =>
      cases right with
      | nil => cases lengths
      | cons other others =>
          rw [List.flatMap_cons, List.flatMap_cons] at equal
          have split := List.append_inj equal (by simp)
          rw [List.Vector.eq item other split.1, ih (Nat.succ.inj lengths) split.2]

/-- Elements that fill a number of blocks are the layout of that many blocks. -/
theorem exists_blocks (count : ℕ) :
    ∀ elements : List β, elements.length = size * count →
      ∃ blocks : List (List.Vector β size), blocks.length = count ∧
        blocks.flatMap List.Vector.toList = elements := by
  induction count with
  | zero =>
      intro elements length
      exact ⟨[], rfl, (List.length_eq_zero_iff.mp length).symm⟩
  | succ count ih =>
      intro elements length
      rw [Nat.mul_succ] at length
      obtain ⟨blocks, counted, laidOut⟩ := ih (elements.drop size) (by
        rw [List.length_drop]
        omega)
      let first : List.Vector β size := ⟨elements.take size, List.length_take_of_le (by omega)⟩
      refine ⟨first :: blocks, congrArg Nat.succ counted, ?_⟩
      rw [List.flatMap_cons, laidOut]
      exact List.take_append_drop size elements

end Blocks
