import ShieldedLedger.Reference.Ciphers
import ShieldedLedger.State.History
import ShieldedLedger.Wallet

/-!
# Receipts

A checkpoint assigns a leaf position to every output of an accepted transaction.
Trial decryption does not look at the commitment there, so what a wallet records
for a position is backed by the leaf exactly when the sender has put the
committed note into the ciphertext.
-/

namespace ShieldedLedger

/-- A run has assigned a position to an output of an accepted transaction. -/
def Assigned (entries : List (List TxV1 × CheckpointSummary)) (tx : TxV1) (j : Fin txOutputs)
    (position : ℕ) : Prop :=
  ∃ (k : ℕ) (batch : List TxV1) (summary : CheckpointSummary) (i : ℕ),
    entries[k]? = some (batch, summary) ∧
    (acceptedTxs batch summary.rejected)[i]? = some tx ∧
    summary.outputPositions[txOutputs * i + j]? = some position

section Runs

variable [Blake3]

/-- An assigned position holds the commitment of the output. -/
theorem Follows.leaf_of_assigned {validators : List ValidatorInfo} {start : List Bytes32}
    {entries : List (List TxV1 × CheckpointSummary)} {ledger : Ledger}
    (follows : Follows validators start entries ledger) {tx : TxV1} {j : Fin txOutputs}
    {position : ℕ} (assigned : Assigned entries tx j position) :
    ledger.tree.leaves[position]? = some (tx.commitments.get j).bytes := by
  obtain ⟨k, batch, summary, i, found, accepted, positionAt⟩ := assigned
  have lookup := congrArg (fun list => list[txOutputs * i + j]?) (follows.lookup found)
  simpa [positionAt, getElem?_commitmentsOf j accepted] using lookup

/-- A lone accepted transaction is assigned the positions its summary lists. -/
theorem assigned_of_lone (ledger : Ledger) (verifier : SpendVerifier) (tx : TxV1)
    (j : Fin txOutputs) (position : ℕ)
    (accepted : (ledger.applyCheckpoint verifier [tx]).2.rejected = [])
    (positionAt : (ledger.applyCheckpoint verifier [tx]).2.outputPositions[(j : ℕ)]? =
      some position) :
    Assigned ([[tx]].zip (ledger.run verifier [[tx]]).2) tx j position := by
  refine ⟨0, [tx], (ledger.applyCheckpoint verifier [tx]).2, 0, rfl, ?_, ?_⟩
  · rw [accepted]
    rfl
  · rwa [Nat.mul_zero, Nat.zero_add]

variable [Ciphers]

/-- The ciphertext of an output carries the committed note: if the wallet opens it to a
note of positive value, that note has the commitment of the same output. -/
def CarriesCommitted (tx : TxV1) (j : Fin txOutputs) (wallet : Wallet) : Prop :=
  ∀ note, tryDecrypt (tx.encOutputs.get j) wallet.sk.incomingViewingKey = some note →
    0 < note.value → note.commitment = tx.commitments.get j

/-- The records a receipt adds. -/
theorem mem_drop_tryReceive {wallet : Wallet} {enc : EncryptedOutput} {position : ℕ}
    {record : NoteRecord} :
    record ∈ (wallet.tryReceive enc position).1.unspent.drop wallet.unspent.length ↔
      tryDecrypt enc wallet.sk.incomingViewingKey = some record.note ∧ 0 < record.note.value ∧
        record.position = position := by
  unfold Wallet.tryReceive
  split
  · rename_i note opened
    split
    · rename_i positive
      rw [List.drop_left, List.mem_singleton, opened]
      constructor
      · rintro rfl
        exact ⟨rfl, positive, rfl⟩
      · rintro ⟨same, -, rfl⟩
        rw [Option.some.inj same]
    · rename_i worthless
      simp only [List.drop_length, List.not_mem_nil, opened, Option.some.injEq, false_iff]
      rintro ⟨rfl, positive, -⟩
      exact worthless positive
  · rename_i closed
    simp [closed]

/-- What a wallet records for an output at its assigned position is backed by the leaf
exactly when the ciphertext carries the committed note. -/
theorem received_backed_iff {emission : EmissionParams} {validators : List ValidatorInfo}
    {difficultyBits : ℕ} {genesisNotes : List (Commitment × UInt64)} {verifier : SpendVerifier}
    {batches : List (List TxV1)} {outcome : Ledger × List CheckpointSummary}
    (reached : outcome =
      (Ledger.genesis emission validators difficultyBits genesisNotes).run verifier batches)
    {tx : TxV1} {j : Fin txOutputs} {position : ℕ}
    (assigned : Assigned (batches.zip outcome.2) tx j position) (wallet : Wallet) :
    (∀ record ∈ (wallet.tryReceive (tx.encOutputs.get j) position).1.unspent.drop
        wallet.unspent.length,
      record.position = position ∧
        outcome.1.tree.leaves[position]? = some record.note.commitment.bytes) ↔
      CarriesCommitted tx j wallet := by
  have follows := Ledger.follows_run
    (Ledger.follows_genesis emission validators difficultyBits genesisNotes) verifier batches
  rw [← reached] at follows
  have leaf := follows.leaf_of_assigned assigned
  have backed (note : Note) : outcome.1.tree.leaves[position]? = some note.commitment.bytes ↔
      note.commitment = tx.commitments.get j := by
    rw [leaf, Option.some.injEq, eq_comm]
    exact ⟨fun same => congrArg Commitment.mk same, congrArg Commitment.bytes⟩
  constructor
  · intro all note opened positive
    exact (backed note).mp
      (all ⟨note, position⟩ (mem_drop_tryReceive.mpr ⟨opened, positive, rfl⟩)).2
  · intro carries record member
    obtain ⟨opened, positive, at_⟩ := mem_drop_tryReceive.mp member
    exact ⟨at_, (backed record.note).mpr (carries record.note opened positive)⟩

end Runs

section Samples

open Reference

/-- The sample spend with a ciphertext of some note for the recipient. -/
def deliveringTx (note : Note) : TxV1 :=
  let enc := (encryptNote note recipientKey.address (Bytes.filled memoLen 0)
    (Bytes.filled 32 4)).getD ⟨[]⟩
  let unproven : TxV1 := { sampleTx with encOutputs := ⟨[enc, ⟨[]⟩], rfl⟩ }
  { unproven with proof := devProof unproven.toPublicInputs }

/-- The note that the first output of the sample spend commits to. -/
def paidNote : Note :=
  ⟨70, recipientKey.addrTag, rhoTransfer (sampleNote.nullifier sampleKey.nk) 0, Bytes.filled 32 1⟩

/-- A note that no output of the sample spend commits to. -/
def inflatedNote : Note := { paidNote with value := 1000 }

def recipientWallet : Wallet := ⟨recipientKey, [], ∅⟩

theorem sampleLedger_run (batches : List (List TxV1)) :
    sampleLedger.run devVerifier batches =
      (Ledger.genesis sampleEmission sampleValidators 0
        ([sampleNote].map fun note => (note.commitment, note.value))).run devVerifier batches :=
  rfl

/-- The sample spend is accepted with either note in its ciphertext, and the recipient
opens it. -/
theorem delivered_facts : ∀ note ∈ [paidNote, inflatedNote],
    (sampleLedger.applyCheckpoint devVerifier [deliveringTx note]).2.rejected = [] ∧
      (sampleLedger.applyCheckpoint devVerifier [deliveringTx note]).2.outputPositions[0]? =
        some 1 ∧
      tryDecrypt ((deliveringTx note).encOutputs.get 0)
        recipientWallet.sk.incomingViewingKey = some note := by
  decide +kernel

/-- A ciphertext of the paid note itself is recorded, and the leaf backs it. -/
theorem received_backed_sample :
    ⟨paidNote, 1⟩ ∈ (recipientWallet.tryReceive
        ((deliveringTx paidNote).encOutputs.get 0) 1).1.unspent.drop
          recipientWallet.unspent.length ∧
      (sampleLedger.run devVerifier [[deliveringTx paidNote]]).1.tree.leaves[1]? =
        some paidNote.commitment.bytes := by
  obtain ⟨accepted, positionAt, own⟩ := delivered_facts paidNote (by simp)
  have assigned := assigned_of_lone sampleLedger devVerifier (deliveringTx paidNote) 0 1
    accepted positionAt
  have backed := received_backed_iff (sampleLedger_run _) assigned recipientWallet
  have recorded : ⟨paidNote, 1⟩ ∈ (recipientWallet.tryReceive
      ((deliveringTx paidNote).encOutputs.get 0) 1).1.unspent.drop recipientWallet.unspent.length :=
    mem_drop_tryReceive.mpr ⟨own, by decide, rfl⟩
  have carried : paidNote.commitment = (deliveringTx paidNote).commitments.get 0 := by
    decide +kernel
  refine ⟨recorded, (backed.mpr (fun note opened positive => ?_) _ recorded).2⟩
  obtain rfl := Option.some.inj (own.symm.trans opened)
  exact carried

/-- A sender that encrypts a thousand units next to a commitment to seventy: the
wallet records them, and no leaf backs them. -/
theorem received_not_backed :
    ¬∀ (_ : Blake3) (_ : Ciphers) (emission : EmissionParams) (validators : List ValidatorInfo)
      (difficultyBits : ℕ) (genesisNotes : List (Commitment × UInt64)) (verifier : SpendVerifier)
      (batches : List (List TxV1)) (outcome : Ledger × List CheckpointSummary)
      (tx : TxV1) (j : Fin txOutputs) (position : ℕ) (wallet : Wallet),
      outcome =
        (Ledger.genesis emission validators difficultyBits genesisNotes).run verifier batches →
      Assigned (batches.zip outcome.2) tx j position →
      ∀ record ∈ (wallet.tryReceive (tx.encOutputs.get j) position).1.unspent.drop
          wallet.unspent.length,
        outcome.1.tree.leaves[position]? = some record.note.commitment.bytes := by
  intro claim
  obtain ⟨accepted, positionAt, opened⟩ := delivered_facts inflatedNote (by simp)
  have assigned := assigned_of_lone sampleLedger devVerifier (deliveringTx inflatedNote) 0 1
    accepted positionAt
  have recorded : ⟨inflatedNote, 1⟩ ∈ (recipientWallet.tryReceive
      ((deliveringTx inflatedNote).encOutputs.get 0) 1).1.unspent.drop
        recipientWallet.unspent.length :=
    mem_drop_tryReceive.mpr ⟨opened, by decide, rfl⟩
  have reached := sampleLedger_run [[deliveringTx inflatedNote]]
  have property := claim Reference.blake3 Reference.ciphers sampleEmission sampleValidators 0
    ([sampleNote].map fun note => (note.commitment, note.value)) devVerifier
    [[deliveringTx inflatedNote]] (sampleLedger.run devVerifier [[deliveringTx inflatedNote]])
    (deliveringTx inflatedNote) 0 1 recipientWallet
  have backed := property reached assigned ⟨inflatedNote, 1⟩ recorded
  exact absurd backed (by decide +kernel)

end Samples

end ShieldedLedger
