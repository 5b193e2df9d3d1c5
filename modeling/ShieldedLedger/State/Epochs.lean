import ShieldedLedger.AntispamQuota.Secrecy
import ShieldedLedger.State.Anchors
import ShieldedLedger.State.Idle

/-!
# The epoch to sign for

`current_epoch` divides the current height, while a checkpoint checks rate
proofs against the epoch of the height it creates.  The two differ exactly when
the next checkpoint opens an epoch.
-/

namespace ShieldedLedger

/-- The offered epoch is the checked one unless the next height opens an epoch. -/
theorem epoch_next_iff (height : ℕ) :
    height / epochLength = (height + 1) / epochLength ↔ (height + 1) % epochLength ≠ 0 := by
  unfold epochLength
  omega

section Epochs

variable [Blake3]

namespace Ledger

/-- The verdict on an otherwise acceptable transaction signed for the current epoch. -/
theorem verdict_current_epoch_iff {self : Ledger} {verifier : SpendVerifier} {note : QuotaNote}
    {k : UInt64} {tx : TxV1} {proof : RateProof}
    (unused : self.quota.seen (self.currentEpoch, note.rateNullifier self.currentEpoch k) = none)
    (signalled : note.signal self.currentEpoch k tx.bindingDigest.toList = .ok proof)
    (carried : tx.antispam = .quota proof)
    (valid : validateStateless tx verifier self.difficultyBits = .ok ())
    (anchored : self.anchorValid tx.anchor = true)
    (fresh : ∀ nf ∈ tx.nullifiers.toList, self.nullifierSeen nf = false) :
    self.verdict verifier ∅ self.quota tx = none ↔ (self.height + 1) % epochLength ≠ 0 := by
  obtain ⟨epochEq, nullifierEq⟩ := slot_of_signal signalled
  have lane : self.laneOpen self.quota tx.antispam = true ↔
      (self.height + 1) % epochLength ≠ 0 := by
    rw [carried, laneOpen, epochEq, nullifierEq, unused, Option.isNone_none, Bool.and_true,
      beq_iff_eq]
    exact epoch_next_iff self.height
  have anchorMem : tx.anchor ∈ self.tree.anchors := by
    rw [anchorValid, CommitmentTree.anchorValid_eq] at anchored
    exact of_decide_eq_true anchored
  have apart : ¬self.Conflicts ∅ tx := by
    rw [conflicts_empty_iff]
    intro conflict
    obtain ⟨nf, member, spent⟩ := conflict
    exact of_decide_eq_false (fresh nf member) spent
  rw [verdict_eq_none_iff, ← lane]
  constructor
  · intro acceptable
    exact acceptable.lane
  · intro «open»
    exact ⟨anchorMem, valid, apart, «open»⟩

/-- When the offered epoch works.  A transaction that passes every other check and carries
a fresh in-quota signal for `current_epoch` is accepted alone in the next checkpoint
exactly when that checkpoint does not open a new epoch. -/
theorem accepted_current_epoch_iff (self : Ledger) (verifier : SpendVerifier) (note : QuotaNote)
    (k : UInt64) (tx : TxV1) (proof : RateProof)
    (unused : self.quota.seen (self.currentEpoch, note.rateNullifier self.currentEpoch k) = none)
    (signalled : note.signal self.currentEpoch k tx.bindingDigest.toList = .ok proof)
    (carried : tx.antispam = .quota proof)
    (valid : validateStateless tx verifier self.difficultyBits = .ok ())
    (anchored : self.anchorValid tx.anchor = true)
    (fresh : ∀ nf ∈ tx.nullifiers.toList, self.nullifierSeen nf = false) :
    (self.applyCheckpoint verifier [tx]).2.accepted = 1 ↔
      (self.height + 1) % epochLength ≠ 0 :=
  (self.accepted_singleton_iff verifier tx).trans
    (verdict_current_epoch_iff unused signalled carried valid anchored fresh)

end Ledger

/-- A full-size quota-lane transaction that signals for the current epoch. -/
def signedTx (ledger : Ledger) (note : QuotaNote) (k : UInt64) (low high : UInt8) : TxV1 :=
  devTx ledger.currentAnchor low high (zeroOutputs encOutputLen encOutputLen) fun digest =>
    .quota ⟨ledger.currentEpoch, note.rateNullifier ledger.currentEpoch k,
      messageX digest.toList,
      field.add note.secret (field.mul (note.slope ledger.currentEpoch)
        (messageX digest.toList))⟩

/-- What the transaction must meet, apart from its epoch. -/
structure ReadyForEpoch (ledger : Ledger) (note : QuotaNote) (k : UInt64) (tx : TxV1) : Prop where
  unused : ledger.quota.seen
    (ledger.currentEpoch, note.rateNullifier ledger.currentEpoch k) = none
  signalled : ∃ proof, note.signal ledger.currentEpoch k tx.bindingDigest.toList = .ok proof ∧
    tx.antispam = .quota proof
  valid : validateStateless tx devVerifier ledger.difficultyBits = .ok ()
  anchored : ledger.anchorValid tx.anchor = true
  fresh : ∀ nf ∈ tx.nullifiers.toList, ledger.nullifierSeen nf = false

/-- On a ledger that has seen no transaction the signed one meets it all. -/
theorem ready_signedTx {ledger : Ledger} (wellSealed : WellSealed ledger)
    (unsignalled : ledger.quota = QuotaRegistry.new) (unspent : ledger.nullifiers = ∅)
    {note : QuotaNote} {k : UInt64} (inQuota : k < note.quota) {low high : UInt8}
    (order : Bytes.filled 32 low < Bytes.filled 32 high) :
    ReadyForEpoch ledger note k (signedTx ledger note k low high) := by
  constructor
  · rw [unsignalled]
    rfl
  · exact ⟨_, signal_of_lt note _ _ inQuota, rfl⟩
  · apply devTx_valid order
    exact checkAntiSpam_quota antispam_devTx rfl _
  · obtain ⟨older, anchors⟩ := wellSealed.current
    rw [Ledger.anchorValid, CommitmentTree.anchorValid_eq, decide_eq_true_eq, anchors]
    exact List.mem_append_right _ (List.mem_singleton_self _)
  · intro nf _
    rw [Ledger.nullifierSeen, unspent]
    exact decide_eq_false (Finset.notMem_empty nf)

end Epochs

section Samples

open Reference

theorem ready_freshLedger :
    ReadyForEpoch freshLedger sampleQuotaNote 0 (signedTx freshLedger sampleQuotaNote 0 1 2) :=
  ready_signedTx (Ledger.wellSealed_genesis ..) rfl rfl (by decide) (by decide)

/-- In the first checkpoint the sample note's signal for the current epoch is accepted. -/
theorem accepted_current_epoch_sample :
    (freshLedger.applyCheckpoint devVerifier
      [signedTx freshLedger sampleQuotaNote 0 1 2]).2.accepted = 1 := by
  have ready := ready_freshLedger
  obtain ⟨proof, signalled, carried⟩ := ready.signalled
  exact (freshLedger.accepted_current_epoch_iff devVerifier sampleQuotaNote 0 _ proof ready.unused
    signalled carried ready.valid ready.anchored ready.fresh).mpr (by decide)

/-- After 99 idle checkpoints the current epoch is 0, and the next checkpoint refuses a
proof signed for it. -/
theorem current_epoch_refused :
    ¬∀ (_ : Blake3) (emission : EmissionParams) (validators : List ValidatorInfo)
      (difficultyBits : ℕ) (genesisNotes : List (Commitment × UInt64)) (verifier : SpendVerifier)
      (batches : List (List TxV1)) (ledger : Ledger) (note : QuotaNote) (k : UInt64) (tx : TxV1)
      (proof : RateProof),
      ledger =
        ((Ledger.genesis emission validators difficultyBits genesisNotes).run verifier batches).1 →
      ledger.quota.seen (ledger.currentEpoch, note.rateNullifier ledger.currentEpoch k) = none →
      note.signal ledger.currentEpoch k tx.bindingDigest.toList = .ok proof →
      tx.antispam = .quota proof →
      validateStateless tx verifier ledger.difficultyBits = .ok () →
      ledger.anchorValid tx.anchor = true →
      (∀ nf ∈ tx.nullifiers.toList, ledger.nullifierSeen nf = false) →
      (ledger.applyCheckpoint verifier [tx]).2.accepted = 1 := by
  intro claim
  obtain ⟨ledger, reached⟩ : ∃ ledger, ledger =
    ((Ledger.genesis sampleEmission [] 0 []).run devVerifier (List.replicate 99 [])).1 := ⟨_, rfl⟩
  have idled : Ledger.Idled freshLedger 99 ledger := by
    rw [reached]
    exact Ledger.idled_run freshLedger devVerifier 99
  have wellSealed : WellSealed ledger := by
    rw [reached]
    exact Ledger.wellSealed_run (Ledger.wellSealed_genesis ..) devVerifier _
  have ready : ReadyForEpoch ledger sampleQuotaNote 0 (signedTx ledger sampleQuotaNote 0 1 2) :=
    ready_signedTx wellSealed idled.quota idled.nullifiers (by decide) (by decide)
  obtain ⟨proof, signalled, carried⟩ := ready.signalled
  have accepted := claim Reference.blake3 sampleEmission [] 0 [] devVerifier
    (List.replicate 99 []) ledger sampleQuotaNote 0 _ proof reached ready.unused signalled carried
    ready.valid ready.anchored ready.fresh
  have accepts := (ledger.accepted_singleton_iff devVerifier _).mp accepted
  rw [Ledger.verdict_current_epoch_iff ready.unused signalled carried ready.valid ready.anchored
    ready.fresh, idled.height] at accepts
  exact accepts (by decide)

end Samples

end ShieldedLedger
