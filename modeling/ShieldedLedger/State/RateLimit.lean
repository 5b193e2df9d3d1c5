import ShieldedLedger.State.Contention

/-!
# Rate limit of the quota lane

Over a whole run every quota slot is used by at most one accepted transaction,
in the epoch of the checkpoint that accepts it.  A note's signal can only name
the slots below its quota, so it cannot carry more accepted transactions in one
epoch, whether or not anybody forges proofs for the same slots.
-/

namespace ShieldedLedger

section Limits

variable [Blake3]

/-- The note's signal can produce the rate proof of this transaction for the epoch. -/
def QuotaNote.Produces (note : QuotaNote) (epoch : ℕ) (tx : TxV1) : Prop :=
  ∃ k message proof, note.signal epoch k message = .ok proof ∧ tx.antispam = .quota proof

/-- A proof that a note can produce uses a slot below the note's quota. -/
theorem QuotaNote.slot_of_produces {note : QuotaNote} {epoch : ℕ} {tx : TxV1}
    (produces : note.Produces epoch tx) :
    ∃ k < note.quota.toNat,
      tx.antispam.slot = some (epoch, note.rateNullifier epoch (UInt64.ofNat k)) := by
  obtain ⟨k, message, proof, signalled, antispam⟩ := produces
  rw [signal] at signalled
  split at signalled
  · cases signalled
  · rename_i within
    obtain rfl := Except.ok.inj signalled
    refine ⟨k.toNat, UInt64.lt_iff_toNat_lt.mp (UInt64.not_le.mp within), ?_⟩
    rw [antispam, UInt64.ofNat_toNat]
    rfl

/-- The slots a note can use in an epoch. -/
def QuotaNote.slots (note : QuotaNote) (epoch : ℕ) : List (ℕ × Bytes32) :=
  (List.range note.quota.toNat).map fun k =>
    (epoch, note.rateNullifier epoch (UInt64.ofNat k))

/-- The quota registry is the record of the accepted transactions of a history: no slot
is used twice, and each belongs to the epoch of its checkpoint. -/
structure RateLimited (validators : List ValidatorInfo)
    (entries : List (List TxV1 × CheckpointSummary)) (ledger : Ledger) : Prop where
  validators_eq : ledger.validators = validators
  taken : ∀ slot, (ledger.quota.seen slot).isSome = true ↔
    slot ∈ slotsOf (acceptedIn (blocksOf validators entries))
  nodup : (slotsOf (acceptedIn (blocksOf validators entries))).Nodup
  epoch : ∀ entry ∈ entries, ∀ slot ∈ slotsOf (acceptedTxs entry.1 entry.2.rejected),
    slot.1 = entry.2.height / epochLength

namespace Ledger

/-- Accepted quota transactions carry the epoch of the coming checkpoint. -/
theorem epoch_of_accepted (self : Ledger) (verifier : SpendVerifier) (batch : List TxV1)
    {slot : ℕ × Bytes32} (member : slot ∈ slotsOf (acceptedOf (self.verdicts verifier batch))) :
    slot.1 = (self.height + 1) / epochLength := by
  obtain ⟨tx, accepted, used⟩ := mem_slotsOf.mp member
  obtain ⟨i, at_i⟩ := List.mem_iff_getElem?.mp (mem_acceptedOf.mp accepted)
  have found : batch[i]? = some tx := by
    rw [← self.map_fst_verdicts verifier batch, List.getElem?_map, at_i]
    rfl
  rw [self.getElem?_verdicts verifier found] at at_i
  have acceptable := (self.verdict_eq_none_iff ..).mp (Prod.mk.inj (Option.some.inj at_i)).2
  exact (self.free_of_laneOpen acceptable.lane used).1

theorem rateLimited_applyCheckpoint {validators : List ValidatorInfo} (verifier : SpendVerifier)
    (past : List (List TxV1 × CheckpointSummary)) (self : Ledger) (batch : List TxV1)
    (limited : RateLimited validators past self) :
    RateLimited validators (past ++ [(batch, (self.applyCheckpoint verifier batch).2)])
      (self.applyCheckpoint verifier batch).1 := by
  obtain ⟨rfl, taken, nodup, epoch⟩ := limited
  have tracked := self.slotsTracked_stageAll verifier batch
  have accepted : acceptedIn (blocksOf self.validators
      (past ++ [(batch, (self.applyCheckpoint verifier batch).2)])) =
        acceptedIn (blocksOf self.validators past) ++
          acceptedOf (self.verdicts verifier batch) := by
    rw [blocksOf, List.map_append, List.map_singleton, blockOf_applyCheckpoint,
      acceptedIn_append]
    simp [acceptedIn, blocksOf]
  constructor
  · exact self.applyCheckpoint_validators verifier batch
  · intro slot
    rw [applyCheckpoint_quota, tracked.taken, taken, accepted, slotsOf_append, List.mem_append]
  · rw [accepted, slotsOf_append, List.nodup_append]
    refine ⟨nodup, tracked.nodup, ?_⟩
    intro slot earlier other added equal
    have free := tracked.free other added
    have used := (taken other).mpr (equal ▸ earlier)
    rw [free] at used
    cases used
  · intro entry member slot used
    cases List.mem_append.mp member with
    | inl earlier => exact epoch entry earlier slot used
    | inr last =>
        obtain rfl := List.mem_singleton.mp last
        rw [acceptedTxs_applyCheckpoint] at used
        exact self.epoch_of_accepted verifier batch used

theorem rateLimited_run (emission : EmissionParams) (validators : List ValidatorInfo)
    (difficultyBits : ℕ) (genesisNotes : List (Commitment × UInt64)) (verifier : SpendVerifier)
    (batches : List (List TxV1)) :
    let outcome := (genesis emission validators difficultyBits genesisNotes).run verifier batches
    RateLimited validators (batches.zip outcome.2) outcome.1 := by
  intro outcome
  have initial : RateLimited validators []
      (genesis emission validators difficultyBits genesisNotes) := by
    rw [genesis_eq]
    exact ⟨rfl, fun slot => by simp [QuotaRegistry.new, slotsOf, acceptedIn, blocksOf],
      List.nodup_nil, by simp⟩
  have limited := Machine.run_history
    (fun (ledger : Ledger) ordered => ledger.applyCheckpoint verifier ordered)
    (RateLimited validators) (rateLimited_applyCheckpoint verifier) initial batches
  rwa [List.nil_append] at limited

end Ledger

/-- A note's signal fills at most `quota` distinct slots of an epoch. -/
theorem QuotaNote.length_le_quota {note : QuotaNote} {epoch : ℕ} {carriers : List TxV1}
    (distinct : (slotsOf carriers).Nodup) (produces : ∀ tx ∈ carriers, note.Produces epoch tx) :
    carriers.length ≤ note.quota.toNat := by
  have own : slotsOf carriers ⊆ note.slots epoch := by
    intro slot member
    obtain ⟨tx, txMem, used⟩ := mem_slotsOf.mp member
    obtain ⟨k, within, slotEq⟩ := QuotaNote.slot_of_produces (produces tx txMem)
    obtain rfl := Option.some.inj (slotEq.symm.trans used)
    exact List.mem_map_of_mem (List.mem_range.mpr within)
  have each : (slotsOf carriers).length = carriers.length := by
    apply List.filterMap_length_eq_length.mpr
    intro tx txMem
    obtain ⟨k, -, slotEq⟩ := QuotaNote.slot_of_produces (produces tx txMem)
    rw [slotEq]
    rfl
  calc carriers.length
      = (slotsOf carriers).length := each.symm
    _ ≤ (note.slots epoch).length := distinct.length_le_of_subset own
    _ = note.quota.toNat := by rw [QuotaNote.slots, List.length_map, List.length_range]

/-- Quota rate limit over runs.  In every run from genesis no pair of epoch and rate
nullifier is carried by two accepted transactions, every accepted one carries the
epoch of the checkpoint that accepted it, and for every note and epoch at most
`quota` accepted transactions carry a proof that the note's signal can produce. -/
theorem quota_limits_accepted (emission : EmissionParams) (validators : List ValidatorInfo)
    (difficultyBits : ℕ) (genesisNotes : List (Commitment × UInt64)) (verifier : SpendVerifier)
    (batches : List (List TxV1)) :
    let outcome := (Ledger.genesis emission validators difficultyBits genesisNotes).run verifier
      batches
    let entries := batches.zip outcome.2
    let accepted := entries.flatMap fun entry => acceptedTxs entry.1 entry.2.rejected
    (slotsOf accepted).Nodup ∧
    (∀ entry ∈ entries, ∀ tx ∈ acceptedTxs entry.1 entry.2.rejected, ∀ proof,
      tx.antispam = .quota proof → proof.epoch = entry.2.height / epochLength) ∧
    ∀ (note : QuotaNote) (epoch : ℕ) (carriers : List TxV1), carriers.Sublist accepted →
      (∀ tx ∈ carriers, note.Produces epoch tx) → carriers.length ≤ note.quota.toNat := by
  intro outcome entries accepted
  have limited := Ledger.rateLimited_run emission validators difficultyBits genesisNotes verifier
    batches
  have nodup : (slotsOf accepted).Nodup := by
    have same : accepted = acceptedIn (blocksOf validators entries) := by
      simp [accepted, acceptedIn, blocksOf, blockOf, List.flatMap_map]
    rw [same]
    exact limited.nodup
  refine ⟨nodup, ?_, ?_⟩
  · intro entry member tx txMem proof antispam
    apply limited.epoch entry member (proof.epoch, proof.rateNullifier)
    apply mem_slotsOf.mpr
    refine ⟨tx, txMem, ?_⟩
    rw [antispam]
    rfl
  · intro note epoch carriers sublist produces
    have distinct : (slotsOf carriers).Nodup := nodup.sublist (sublist.filterMap _)
    exact QuotaNote.length_le_quota distinct produces

end Limits

end ShieldedLedger
