import Mathlib.Algebra.BigOperators.Group.Finset.Basic
import Mathlib.Algebra.Order.BigOperators.Group.Finset
import Mathlib.Algebra.BigOperators.Intervals

/-!
# Pools of coins

The abstract account of a private ledger: coins are created at consecutive
positions, a coin may be spent once, and spending hides nothing from the pool.
The unspent total changes only by what is created and what is spent, so a
transfer that creates exactly what it spends keeps it.
-/

/-- Coin values by position, and the positions already spent. -/
structure CoinPool where
  values : List ℕ
  spent : Finset ℕ
  spent_lt : ∀ position ∈ spent, position < values.length

namespace CoinPool

/-- Value of the coin at a position. -/
def value (pool : CoinPool) (position : ℕ) : ℕ := pool.values.getD position 0

/-- Total value of the coins not yet spent. -/
def unspent (pool : CoinPool) : ℕ :=
  ∑ position ∈ Finset.range pool.values.length \ pool.spent, pool.value position

/-- A pool holding fresh coins only. -/
def ofValues (values : List ℕ) : CoinPool := ⟨values, ∅, by simp⟩

/-- Create coins after the existing ones. -/
def create (pool : CoinPool) (values : List ℕ) : CoinPool where
  values := pool.values ++ values
  spent := pool.spent
  spent_lt position member := by
    have := pool.spent_lt position member
    simp only [List.length_append]
    omega

/-- Mark one coin as spent. -/
def spend (pool : CoinPool) (position : ℕ) (inRange : position < pool.values.length) :
    CoinPool where
  values := pool.values
  spent := insert position pool.spent
  spent_lt other member := by
    rcases Finset.mem_insert.mp member with rfl | earlier
    · exact inRange
    · exact pool.spent_lt other earlier

@[simp] theorem unspent_ofValues (values : List ℕ) : (ofValues values).unspent = values.sum := by
  simp only [unspent, ofValues, value, Finset.sdiff_empty]
  induction values with
  | nil => rfl
  | cons head tail ih =>
      rw [List.length_cons, Finset.sum_range_succ', List.sum_cons, ← ih]
      simp [add_comm]

theorem value_create_of_lt (pool : CoinPool) (values : List ℕ) {position : ℕ}
    (inRange : position < pool.values.length) :
    (pool.create values).value position = pool.value position := by
  simp [value, create, List.getD_eq_getElem?_getD, List.getElem?_append_left inRange]

theorem unspent_create (pool : CoinPool) (values : List ℕ) :
    (pool.create values).unspent = pool.unspent + values.sum := by
  have split : Finset.range (pool.values ++ values).length \ pool.spent =
      (Finset.range pool.values.length \ pool.spent) ∪
        (Finset.range values.length).image (pool.values.length + ·) := by
    ext position
    simp only [Finset.mem_sdiff, Finset.mem_range, Finset.mem_union, Finset.mem_image,
      List.length_append]
    constructor
    · rintro ⟨below, fresh⟩
      by_cases old : position < pool.values.length
      · exact .inl ⟨old, fresh⟩
      · exact .inr ⟨position - pool.values.length, by omega, by omega⟩
    · rintro (⟨below, fresh⟩ | ⟨offset, below, rfl⟩)
      · exact ⟨by omega, fresh⟩
      · exact ⟨by omega, fun member => by have := pool.spent_lt _ member; omega⟩
  have disjoint : Disjoint (Finset.range pool.values.length \ pool.spent)
      ((Finset.range values.length).image (pool.values.length + ·)) := by
    rw [Finset.disjoint_left]
    intro position old new
    simp only [Finset.mem_sdiff, Finset.mem_range, Finset.mem_image] at old new
    obtain ⟨offset, -, rfl⟩ := new
    omega
  have added : ∑ position ∈ (Finset.range values.length).image (pool.values.length + ·),
      (pool.create values).value position = values.sum := by
    rw [Finset.sum_image fun left _ right _ equal => Nat.add_left_cancel equal]
    rw [← unspent_ofValues values]
    simp only [unspent, ofValues, Finset.sdiff_empty]
    apply Finset.sum_congr rfl
    intro offset _
    simp [value, create, List.getD_eq_getElem?_getD,
      List.getElem?_append_right (Nat.le_add_right _ _)]
  calc (pool.create values).unspent
      = ∑ position ∈ Finset.range (pool.values ++ values).length \ pool.spent,
          (pool.create values).value position := rfl
    _ = pool.unspent + values.sum := by
        rw [split, Finset.sum_union disjoint, added]
        congr 1
        apply Finset.sum_congr rfl
        intro position member
        exact value_create_of_lt _ _ (Finset.mem_range.mp (Finset.mem_sdiff.mp member).1)

/-- Spending a fresh coin removes exactly its value. -/
theorem unspent_spend (pool : CoinPool) {position : ℕ}
    (inRange : position < pool.values.length) (fresh : position ∉ pool.spent) :
    (pool.spend position inRange).unspent + pool.value position = pool.unspent := by
  have member : position ∈ Finset.range pool.values.length \ pool.spent := by
    simp [inRange, fresh]
  have removed : Finset.range pool.values.length \ insert position pool.spent =
      (Finset.range pool.values.length \ pool.spent).erase position := by
    ext other
    simp only [Finset.mem_sdiff, Finset.mem_insert, Finset.mem_erase, not_or]
    tauto
  calc (pool.spend position inRange).unspent + pool.value position
      = ∑ other ∈ (Finset.range pool.values.length \ pool.spent).erase position,
          pool.value other + pool.value position := by rw [← removed]; rfl
    _ = pool.unspent := Finset.sum_erase_add _ _ member

/-- Any selection of coins that avoids the spent ones is worth at most the
unspent total. -/
theorem sum_le_unspent (pool : CoinPool) (selected : Finset ℕ)
    (inRange : ∀ position ∈ selected, position < pool.values.length)
    (avoids : ∀ position ∈ selected, position ∉ pool.spent) :
    ∑ position ∈ selected, pool.value position ≤ pool.unspent := by
  apply Finset.sum_le_sum_of_subset
  intro position member
  simp only [Finset.mem_sdiff, Finset.mem_range]
  exact ⟨inRange position member, avoids position member⟩

end CoinPool
