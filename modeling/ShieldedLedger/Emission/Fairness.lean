import ShieldedLedger.Emission.Shares

/-!
# The reward split is fair

Flooring every proportional part leaves fewer units than there are validators.
The hand-out loop therefore gives at most one unit to each validator, in index
order, and never wraps around.
-/

namespace ShieldedLedger

/-- Exact sum of the weights. -/
def weightTotal (weights : List UInt64) : ℕ :=
  (weights.map UInt64.toNat).sum

/-- The proportional parts before the remainder is handed out. -/
def floorParts (total : UInt64) (weights : List UInt64) : List ℕ :=
  weights.map fun weight => total.toNat * weight.toNat / weightTotal weights

/-- Units left over after flooring. -/
def roundingRemainder (total : UInt64) (weights : List UInt64) : ℕ :=
  total.toNat - (floorParts total weights).sum

/-- Every machine operation of `distribute` is exact.  A vector never holds more
than `2 ^ 64` weights, which bounds the `u128` sum. -/
structure DistributeFits (total : UInt64) (weights : List UInt64) : Prop where
  weightSum : weights.length ≤ 2 ^ 64 → weightTotal weights < 2 ^ 128
  product : ∀ weight ∈ weights, total.toNat * weight.toNat < 2 ^ 128
  amount : ∀ part ∈ floorParts total weights, part < 2 ^ 64
  distributed : ∀ count, ((floorParts total weights).take count).sum < 2 ^ 64
  remainder : (floorParts total weights).sum ≤ total.toNat
  increment : 0 < roundingRemainder total weights →
    ∀ part ∈ floorParts total weights, part + 1 < 2 ^ 64

theorem sum_floorParts_le (total : UInt64) {weights : List UInt64}
    (positive : 0 < weightTotal weights) : (floorParts total weights).sum ≤ total.toNat := by
  have bound := sum_floor_le total.toNat (weightTotal weights) positive
    (weights.map UInt64.toNat) le_rfl
  rw [List.map_map] at bound
  exact bound

/-- Weights of `u64` add up within `u128`. -/
theorem weightTotal_le (weights : List UInt64) :
    weightTotal weights ≤ weights.length * (2 ^ 64 - 1) := by
  have each : ∀ weight ∈ weights.map UInt64.toNat, weight ≤ 2 ^ 64 - 1 := by
    intro weight member
    obtain ⟨machine, _, rfl⟩ := List.mem_map.mp member
    have bound := machine.toNat_lt
    omega
  have bound := List.sum_le_card_nsmul (weights.map UInt64.toNat) (2 ^ 64 - 1) each
  rw [List.length_map] at bound
  exact bound

/-- A positive weight sum makes every operation of the split exact. -/
theorem distributeFits (total : UInt64) {weights : List UInt64}
    (positive : 0 < weightTotal weights) : DistributeFits total weights := by
  have totalLt := total.toNat_lt
  have parts := sum_floorParts_le total positive
  have part (value : ℕ) (member : value ∈ floorParts total weights) :
      value ≤ (floorParts total weights).sum := List.le_sum_of_mem member
  constructor
  · intro short
    have bound := weightTotal_le weights
    have wide : weights.length * (2 ^ 64 - 1) ≤ 2 ^ 64 * (2 ^ 64 - 1) :=
      Nat.mul_le_mul_right _ short
    omega
  · intro weight _
    have weightLt := weight.toNat_lt
    have bound : total.toNat * weight.toNat < 2 ^ 64 * 2 ^ 64 :=
      Nat.mul_lt_mul'' totalLt weightLt
    omega
  · intro value member
    have bound := part value member
    omega
  · intro count
    have taken := List.sum_take_add_sum_drop (floorParts total weights) count
    omega
  · exact parts
  · intro left value member
    have bound := part value member
    unfold roundingRemainder at left
    omega

/-- Less than one unit is lost for each weight. -/
theorem mul_lt_sum_floor (total weightSum : ℕ) (positive : 0 < weightSum) {weights : List ℕ}
    (nonempty : weights ≠ []) :
    total * weights.sum < weightSum *
      ((weights.map fun weight => total * weight / weightSum).sum + weights.length) := by
  induction weights with
  | nil => exact absurd rfl nonempty
  | cons weight rest ih =>
      have here : total * weight < weightSum * (total * weight / weightSum + 1) :=
        Nat.lt_mul_div_succ _ positive
      have later : total * rest.sum ≤
          weightSum * ((rest.map fun weight => total * weight / weightSum).sum + rest.length) := by
        cases rest with
        | nil => simp
        | cons next rest => exact (ih (List.cons_ne_nil _ _)).le
      simp only [List.map_cons, List.sum_cons, List.length_cons]
      calc total * (weight + rest.sum)
          = total * weight + total * rest.sum := Nat.mul_add _ _ _
        _ < weightSum * (total * weight / weightSum + 1) +
              weightSum * ((rest.map fun weight => total * weight / weightSum).sum +
                rest.length) := Nat.add_lt_add_of_lt_of_le here later
        _ = _ := by ring

/-- Fewer units are left over than there are validators. -/
theorem roundingRemainder_lt (total : UInt64) {weights : List UInt64}
    (positive : 0 < weightTotal weights) : roundingRemainder total weights < weights.length := by
  have nonempty : weights.map UInt64.toNat ≠ [] := by
    intro empty
    rw [weightTotal, empty] at positive
    exact lt_irrefl 0 positive
  have lost := mul_lt_sum_floor total.toNat (weightTotal weights) positive nonempty
  rw [List.map_map, List.length_map, Nat.mul_comm total.toNat] at lost
  have cancelled : total.toNat < (floorParts total weights).sum + weights.length :=
    Nat.lt_of_mul_lt_mul_left lost
  have below := sum_floorParts_le total positive
  unfold roundingRemainder
  omega

@[simp] theorem length_handOut (remainder i : ℕ) (shares : List RewardShare) :
    (handOut remainder i shares).length = shares.length := by
  have mapped := congrArg List.length (map_validatorIndex_handOut remainder i shares)
  rw [List.length_map, List.length_map] at mapped
  exact mapped

/-- Within one lap the loop adds a unit to each of the next shares. -/
theorem getElem?_handOut {remainder : ℕ} :
    ∀ {start : ℕ} {shares : List RewardShare}, start + remainder ≤ shares.length →
      ∀ i, (handOut remainder start shares)[i]? = shares[i]?.map fun share =>
        if start ≤ i ∧ i < start + remainder then { share with amount := share.amount + 1 }
        else share := by
  induction remainder with
  | zero =>
      intro start shares _ i
      have outside : ¬(start ≤ i ∧ i < start + 0) := by omega
      simp only [handOut, if_neg outside, Option.map_id']
  | succ remainder ih =>
      intro start shares inside i
      rw [handOut]
      cases remainder with
      | zero =>
          rw [handOut, List.getElem?_modify]
          cases shares[i]? with
          | none => rfl
          | some share =>
              have same : (start ≤ i ∧ i < start + (0 + 1)) ↔ start = i := by omega
              simp only [Option.map_some, same]
              split <;> rfl
      | succ remainder =>
          have next : (start + 1) % shares.length = start + 1 := Nat.mod_eq_of_lt (by omega)
          have room : start + 1 + (remainder + 1) ≤ (shares.modify start fun share =>
              { share with amount := share.amount + 1 }).length := by
            rw [List.length_modify]
            omega
          rw [next, ih room, List.getElem?_modify]
          cases shares[i]? with
          | none => rfl
          | some share =>
              rcases Nat.lt_trichotomy start i with above | here | below
              · have range : (start + 1 ≤ i ∧ i < start + 1 + (remainder + 1)) ↔
                    (start ≤ i ∧ i < start + (remainder + 1 + 1)) := by omega
                simp only [Option.map_eq_map, Option.map_some, range, if_neg above.ne]
              · have range : ¬(start + 1 ≤ i ∧ i < start + 1 + (remainder + 1)) := by omega
                have given : start ≤ i ∧ i < start + (remainder + 1 + 1) := by omega
                simp only [Option.map_eq_map, Option.map_some, if_neg range, if_pos given,
                  if_pos here]
              · have range : ¬(start + 1 ≤ i ∧ i < start + 1 + (remainder + 1)) := by omega
                have given : ¬(start ≤ i ∧ i < start + (remainder + 1 + 1)) := by omega
                simp only [Option.map_eq_map, Option.map_some, if_neg range, if_neg given,
                  if_neg below.ne']

/-- Each share is its part rounded down, and one more unit for the first validators. -/
theorem getElem?_distribute (total : UInt64) {weights : List UInt64}
    (positive : 0 < weightTotal weights) (i : ℕ) :
    (distribute total weights)[i]? = weights[i]?.map fun weight =>
      { validatorIndex := UInt32.ofNat i
        amount := UInt64.ofNat (total.toNat * weight.toNat / weightTotal weights) +
          if i < roundingRemainder total weights then 1 else 0 } := by
  have lap : 0 + roundingRemainder total weights ≤
      (weights.mapIdx (floorShare total (weightTotal weights))).length := by
    rw [List.length_mapIdx, Nat.zero_add]
    exact (roundingRemainder_lt total positive).le
  have handed : distribute total weights = handOut (roundingRemainder total weights) 0
      (weights.mapIdx (floorShare total (weightTotal weights))) := by
    rw [distribute_eq_handOut total positive]
    rfl
  rw [handed, getElem?_handOut lap, List.getElem?_mapIdx]
  cases weights[i]? with
  | none => rfl
  | some weight =>
      have range : (0 ≤ i ∧ i < 0 + roundingRemainder total weights) ↔
          i < roundingRemainder total weights := by omega
      simp only [Option.map_some, range, floorShare]
      split
      · rfl
      · rw [UInt64.add_zero]

/-- What a split of `total` by `weights` promises to its validators. -/
structure FairSplit (total : UInt64) (weights : List UInt64) (shares : List RewardShare) :
    Prop where
  length : shares.length = weights.length
  exact : shareSum shares = total.toNat
  remainder : roundingRemainder total weights < weights.length
  index : ∀ i share, shares[i]? = some share → share.validatorIndex = UInt32.ofNat i
  amount : ∀ i share weight, shares[i]? = some share → weights[i]? = some weight →
    share.amount.toNat = total.toNat * weight.toNat / weightTotal weights +
      if i < roundingRemainder total weights then 1 else 0

/-- When some weight is positive, the split is computed without overflow, gives out
exactly the total and favours nobody by more than one unit of the remainder. -/
theorem distribute_fair (total : UInt64) (weights : List UInt64)
    (positive : 0 < weightTotal weights) :
    DistributeFits total weights ∧ FairSplit total weights (distribute total weights) := by
  have fits := distributeFits total positive
  have entry := getElem?_distribute total positive
  refine ⟨fits, ?_, shareSum_distribute total positive, roundingRemainder_lt total positive,
    ?_, ?_⟩
  · have handed := distribute_eq_handOut total positive
    rw [handed, length_handOut, List.length_mapIdx]
  · intro i share found
    rw [entry, Option.map_eq_some_iff] at found
    obtain ⟨weight, _, rfl⟩ := found
    rfl
  · intro i share weight found weighted
    rw [entry, weighted, Option.map_some] at found
    have partLt : total.toNat * weight.toNat / weightTotal weights ∈ floorParts total weights :=
      List.mem_map_of_mem (List.mem_of_getElem? weighted)
    have amount := fits.amount _ partLt
    rw [← Option.some.inj found]
    split
    · next given =>
      have increment := fits.increment (Nat.zero_lt_of_lt given) _ partLt
      rw [UInt64.toNat_add, UInt64.toNat_ofNat_of_lt' amount, UInt64.toNat_one,
        Nat.mod_eq_of_lt increment]
    · rw [UInt64.add_zero, UInt64.toNat_ofNat_of_lt' amount, Nat.add_zero]

/-- Three validators of weight 1, 2 and 4 share a hundred units. -/
theorem distribute_fair_hundred :
    distribute 100 [1, 2, 4] = [⟨0, 15⟩, ⟨1, 28⟩, ⟨2, 57⟩] ∧
      FairSplit 100 [1, 2, 4] (distribute 100 [1, 2, 4]) :=
  ⟨by decide, (distribute_fair 100 [1, 2, 4] (by decide)).2⟩

end ShieldedLedger
