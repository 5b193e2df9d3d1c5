import ShieldedLedger.Emission.Fairness
import ShieldedLedger.State.Supply

/-!
# Validators without weight

The rounding remainder goes to the lowest indices, whatever their weight.  A validator
without weight therefore receives one unit when its index is below the remainder, and
a note of that value is minted to it.
-/

namespace ShieldedLedger

/-- Without weight a share is a unit of the remainder, or nothing. -/
theorem getElem?_distribute_of_zero (total : UInt64) {weights : List UInt64}
    (positive : 0 < weightTotal weights) {i : ℕ} (zero : weights[i]? = some 0) :
    (distribute total weights)[i]? =
      some ⟨UInt32.ofNat i, if i < roundingRemainder total weights then 1 else 0⟩ := by
  rw [getElem?_distribute total positive, zero, Option.map_some, UInt64.toNat_zero, Nat.mul_zero,
    Nat.zero_div]
  split <;> rfl

section Minted

variable [Blake3]

namespace Ledger

/-- The leaves of the reward notes follow those of the accepted outputs. -/
theorem getElem?_leaves_of_rewardNotes (self : Ledger) (verifier : SpendVerifier)
    (batch : List TxV1) (i : ℕ) {note : Note} (found : self.rewardNotes[i]? = some note) :
    let outcome := self.applyCheckpoint verifier batch
    outcome.1.tree.leaves[self.tree.leaves.length + outcome.2.outputPositions.length + i]? =
      some note.commitment.bytes := by
  intro outcome
  have positions : outcome.2.outputPositions.length =
      ((self.stageAll verifier batch).commitments.map Commitment.bytes).length := by
    rw [applyCheckpoint_summary_outputPositions, List.length_range', List.length_map]
  rw [applyCheckpoint_leaves, ← List.append_assoc, positions, ← List.length_append,
    List.getElem?_append_right (Nat.le_add_right _ _), Nat.add_sub_cancel_left,
    List.getElem?_map, found, Option.map_some]

end Ledger

/-- A validator without weight receives a unit of the rounding remainder if its index is
below it, and nothing otherwise; every checkpoint mints it a note of that value. -/
theorem zero_weight_share (total : UInt64) {weights : List UInt64}
    (positive : 0 < weightTotal weights) {i : ℕ} (zero : weights[i]? = some 0) :
    let amount : UInt64 := if i < roundingRemainder total weights then 1 else 0
    (distribute total weights)[i]? = some ⟨UInt32.ofNat i, amount⟩ ∧
      ∀ (ledger : Ledger) (verifier : SpendVerifier) (batch : List TxV1),
        ledger.validators.map ValidatorInfo.weight = weights →
        ledger.emission.emissionAt (ledger.height + 1) = total →
        let outcome := ledger.applyCheckpoint verifier batch
        ∃ note, ledger.rewardNotes[i]? = some note ∧ note.value = amount ∧
          (i < 2 ^ 32 →
            ledger.validators[i]?.map ValidatorInfo.addrTag = some note.addrTag) ∧
          outcome.1.tree.leaves[
            ledger.tree.leaves.length + outcome.2.outputPositions.length + i]? =
              some note.commitment.bytes := by
  intro amount
  have share := getElem?_distribute_of_zero total positive zero
  refine ⟨share, ?_⟩
  intro ledger verifier batch weightsEq totalEq outcome
  have noted : ledger.rewardNotes[i]? =
      some (rewardNote ledger.validators (ledger.height + 1) ⟨UInt32.ofNat i, amount⟩) := by
    rw [Ledger.rewardNotes, Ledger.nextRewards, rewardDescriptor, weightsEq, totalEq,
      List.getElem?_map, share, Option.map_some]
  refine ⟨_, noted, rfl, ?_, ledger.getElem?_leaves_of_rewardNotes verifier batch i noted⟩
  intro narrow
  have index : (UInt32.ofNat i).toNat = i := UInt32.toNat_ofNat_of_lt' narrow
  rw [← weightsEq, List.getElem?_map, Option.map_eq_some_iff] at zero
  obtain ⟨validator, found, _⟩ := zero
  simp only [rewardNote, index, found, Option.map_some, Option.getD_some]

end Minted

section Samples

open Reference

/-- The first of three validators has no weight. -/
def unevenLedger : Ledger :=
  Ledger.genesis ⟨100, 100, 1, by decide⟩
    [⟨0, Bytes.filled 32 0xA0⟩, ⟨1, Bytes.filled 32 0xA1⟩, ⟨2, Bytes.filled 32 0xA2⟩] 0 []

theorem zero_weight_share_sample :
    (distribute 100 [0, 1, 2])[0]? = some ⟨0, 1⟩ ∧
      ∃ note, unevenLedger.rewardNotes[0]? = some note ∧ note.value = 1 ∧
        some (Bytes.filled 32 0xA0) = some note.addrTag ∧
        (unevenLedger.applyCheckpoint devVerifier []).1.tree.leaves[
          unevenLedger.tree.leaves.length +
            (unevenLedger.applyCheckpoint devVerifier []).2.outputPositions.length + 0]? =
              some note.commitment.bytes := by
  have positive : 0 < weightTotal [0, 1, 2] := by decide
  have unweighted : ([0, 1, 2] : List UInt64)[0]? = some 0 := rfl
  have split := zero_weight_share 100 positive unweighted
  obtain ⟨note, noted, value, addressed, leaf⟩ :=
    split.2 unevenLedger devVerifier [] rfl (by decide)
  exact ⟨split.1, note, noted, value, addressed (by decide), leaf⟩

/-- The validator without weight is paid the unit that flooring leaves over. -/
theorem zero_weight_is_paid :
    ¬∀ (total : UInt64) (weights : List UInt64), 0 < weightTotal weights →
      ∀ i : ℕ, weights[i]? = some (0 : UInt64) →
        ∀ share : RewardShare, (distribute total weights)[i]? = some share →
          share.amount = 0 := by
  intro claim
  have paid : (distribute 100 [0, 1, 2])[0]? = some ⟨0, 1⟩ := by decide
  have unpaid := claim 100 [0, 1, 2] (by decide) 0 rfl _ paid
  exact absurd unpaid (by decide)

end Samples

end ShieldedLedger
