import ShieldedLedger.State.Checkpoint
import ShieldedLedger.Tx.Shape

/-!
# Idle checkpoints

A checkpoint without transactions raises the height, mints and seals, and keeps
everything that transactions are judged by except the anchors.
-/

namespace ShieldedLedger

section Idle

variable [Blake3]

namespace Ledger

/-- A ledger some idle checkpoints later. -/
structure Idled (start : Ledger) (count : ℕ) (ledger : Ledger) : Prop where
  height : ledger.height = start.height + count
  nullifiers : ledger.nullifiers = start.nullifiers
  quota : ledger.quota = start.quota
  difficultyBits : ledger.difficultyBits = start.difficultyBits

/-- Nothing is staged without transactions. -/
theorem stageAll_nil (self : Ledger) (verifier : SpendVerifier) :
    self.stageAll verifier [] = Staged.init self.quota := rfl

theorem idled_applyCheckpoint {start : Ledger} {count : ℕ} {self : Ledger}
    (idled : Idled start count self) (verifier : SpendVerifier) :
    Idled start (count + 1) (self.applyCheckpoint verifier []).1 := by
  constructor
  · rw [applyCheckpoint_height, idled.height, Nat.add_assoc]
  · rw [applyCheckpoint_nullifiers, stageAll_nil]
    exact (Finset.union_empty _).trans idled.nullifiers
  · rw [applyCheckpoint_quota, stageAll_nil]
    exact idled.quota
  · rw [applyCheckpoint_difficultyBits, idled.difficultyBits]

theorem idled_run (self : Ledger) (verifier : SpendVerifier) (count : ℕ) :
    Idled self count (self.run verifier (List.replicate count [])).1 := by
  induction count with
  | zero => exact ⟨rfl, rfl, rfl, rfl⟩
  | succ count ih =>
      rw [List.replicate_succ', run, Machine.run_append]
      exact idled_applyCheckpoint ih verifier

end Ledger

end Idle

section Samples

open Reference

/-- A ledger without validators before its first checkpoint. -/
def freshLedger : Ledger := Ledger.genesis sampleEmission [] 0 []

end Samples

end ShieldedLedger
