import ShieldedLedger.Emission
import ShieldedLedger.General.Checked
import Mathlib.Algebra.Order.BigOperators.Group.List

/-!
# Shares sum exactly to the total

Each proportional share is rounded down, so the shares distribute at most the
total; the remainder is handed out unit by unit.  When some weight is positive
the amounts add up to the total, without overflow on the way.
-/

namespace ShieldedLedger

/-- Exact sum of the amounts of reward shares. -/
def shareSum (shares : List RewardShare) : ℕ :=
  (shares.map fun share => share.amount.toNat).sum

@[simp] theorem shareSum_nil : shareSum [] = 0 := rfl

@[simp] theorem shareSum_cons (share : RewardShare) (shares : List RewardShare) :
    shareSum (share :: shares) = share.amount.toNat + shareSum shares := rfl

/-- One more unit for one share is one more unit in all. -/
theorem shareSum_modify {shares : List RewardShare} (fits : shareSum shares + 1 < 2 ^ 64) :
    ∀ {i : ℕ}, i < shares.length →
      shareSum (shares.modify i fun share => { share with amount := share.amount + 1 }) =
        shareSum shares + 1 := by
  induction shares with
  | nil =>
      intro i inside
      cases inside
  | cons share rest ih =>
      intro i inside
      simp only [shareSum_cons] at fits
      cases i with
      | zero =>
          have added : (share.amount + 1).toNat = share.amount.toNat + 1 := by
            rw [UInt64.toNat_add, UInt64.toNat_one, Nat.mod_eq_of_lt (by omega)]
          simp only [List.modify_zero_cons, shareSum_cons, added]
          omega
      | succ i =>
          have later := ih (by omega) (Nat.lt_of_succ_lt_succ inside)
          simp only [List.modify_succ_cons, shareSum_cons, later]
          omega

/-- Handing out the remainder adds it to the sum. -/
theorem shareSum_handOut (remainder : ℕ) :
    ∀ {i : ℕ} {shares : List RewardShare}, i < shares.length →
      shareSum shares + remainder < 2 ^ 64 →
      shareSum (handOut remainder i shares) = shareSum shares + remainder := by
  induction remainder with
  | zero => exact fun _ _ => rfl
  | succ remainder ih =>
      intro i shares inside fits
      have room : shareSum shares + 1 < 2 ^ 64 := by omega
      have one := shareSum_modify room inside
      rw [handOut, ih, one]
      · omega
      · rw [List.length_modify]
        exact Nat.mod_lt _ (Nat.zero_lt_of_lt inside)
      · rw [one]
        omega

/-- Proportional parts, rounded down, do not exceed the total. -/
theorem sum_floor_le (total weightSum : ℕ) (positive : 0 < weightSum) (weights : List ℕ)
    (bounded : weights.sum ≤ weightSum) :
    (weights.map fun weight => total * weight / weightSum).sum ≤ total := by
  have scaled (weights : List ℕ) :
      (weights.map fun weight => total * weight / weightSum).sum * weightSum ≤
        total * weights.sum := by
    induction weights with
    | nil => simp
    | cons weight rest ih =>
        simp only [List.map_cons, List.sum_cons, Nat.add_mul, Nat.mul_add]
        exact Nat.add_le_add (Nat.div_mul_le_self _ _) ih
  exact Nat.le_of_mul_le_mul_right ((scaled weights).trans (Nat.mul_le_mul_left _ bounded)) positive

/-- The proportional shares sum to the rounded parts: none of them overflows. -/
theorem shareSum_mapIdx_floorShare (total : UInt64) {weightSum : ℕ} (weights : List UInt64)
    (bounded : (weights.map UInt64.toNat).sum ≤ weightSum) :
    shareSum (weights.mapIdx (floorShare total weightSum)) =
      ((weights.map UInt64.toNat).map fun weight => total.toNat * weight / weightSum).sum := by
  have amounts : (weights.mapIdx (floorShare total weightSum)).map
      (fun share => share.amount.toNat) =
        (weights.map UInt64.toNat).map fun weight => total.toNat * weight / weightSum := by
    apply List.ext_getElem?
    intro i
    simp only [List.getElem?_map, List.getElem?_mapIdx]
    cases found : weights[i]? with
    | none => rfl
    | some weight =>
        have member : weight.toNat ∈ weights.map UInt64.toNat :=
          List.mem_map_of_mem (List.mem_of_getElem? found)
        have below : weight.toNat ≤ weightSum :=
          (List.le_sum_of_mem member).trans bounded
        have small : total.toNat * weight.toNat / weightSum < 2 ^ 64 := by
          refine lt_of_le_of_lt ?_ total.toNat_lt
          exact Nat.div_le_of_le_mul (by
            rw [Nat.mul_comm weightSum]
            exact Nat.mul_le_mul_left _ below)
        simp only [Option.map_some, floorShare, UInt64.toNat_ofNat_of_lt' small]
  rw [shareSum, amounts]

/-- With a positive weight, the loop hands out what flooring left over. -/
theorem distribute_eq_handOut (total : UInt64) {weights : List UInt64}
    (positive : 0 < (weights.map UInt64.toNat).sum) :
    let weightSum := (weights.map UInt64.toNat).sum
    distribute total weights =
      handOut (total.toNat -
          (weights.map fun weight => total.toNat * weight.toNat / weightSum).sum) 0
        (weights.mapIdx (floorShare total weightSum)) := by
  intro weightSum
  have nonempty : weights ≠ [] := by
    intro empty
    rw [empty] at positive
    exact lt_irrefl 0 positive
  set shares := weights.mapIdx (floorShare total weightSum) with sharesEq
  have parts : shareSum shares =
      (weights.map fun weight => total.toNat * weight.toNat / weightSum).sum := by
    rw [sharesEq, shareSum_mapIdx_floorShare total weights le_rfl, List.map_map]
    rfl
  have atMost : shareSum shares ≤ total.toNat := by
    rw [sharesEq, shareSum_mapIdx_floorShare total weights le_rfl]
    exact sum_floor_le _ _ positive _ le_rfl
  have fits : shareSum shares < 2 ^ 64 := atMost.trans_lt total.toNat_lt
  set distributed := shares.foldl (fun (sum : UInt64) share => sum + share.amount) 0
    with distributedEq
  have summed : distributed.toNat = shareSum shares :=
    Checked.toNat_total RewardShare.amount shares fits
  have remainder : (total - distributed).toNat = total.toNat - shareSum shares := by
    have below : distributed ≤ total := by
      rw [UInt64.le_iff_toNat_le, summed]
      exact atMost
    rw [UInt64.toNat_sub_of_le _ _ below, summed]
  have guard : ¬(weightSum = 0 ∨ weights = []) := by
    intro skipped
    cases skipped with
    | inl zero => exact positive.ne' zero
    | inr empty => exact nonempty empty
  have unfolded : distribute total weights = handOut (total - distributed).toNat 0 shares := by
    rw [distribute]
    exact if_neg guard
  rw [unfolded, remainder, parts]

/-- When some weight is positive, the shares sum exactly to the total. -/
theorem shareSum_distribute (total : UInt64) {weights : List UInt64}
    (positive : 0 < (weights.map UInt64.toNat).sum) :
    shareSum (distribute total weights) = total.toNat := by
  have totalLt := total.toNat_lt
  have floors := shareSum_mapIdx_floorShare total weights le_rfl
  have atMost := sum_floor_le total.toNat _ positive (weights.map UInt64.toNat) le_rfl
  have nonempty : 0 < weights.length := by
    cases weights with
    | nil => exact absurd positive (lt_irrefl 0)
    | cons weight rest => exact Nat.succ_pos _
  rw [List.map_map] at floors atMost
  rw [distribute_eq_handOut total positive, shareSum_handOut]
  · rw [floors]
    exact Nat.add_sub_cancel' atMost
  · rw [List.length_mapIdx]
    exact nonempty
  · rw [floors]
    exact (Nat.add_sub_cancel' atMost).trans_lt totalLt

/-- Without a positive weight nothing is distributed. -/
theorem distribute_of_no_weight (total : UInt64) {weights : List UInt64}
    (zero : (weights.map UInt64.toNat).sum = 0) : distribute total weights = [] := by
  simp only [distribute, zero, true_or, if_true]

end ShieldedLedger
