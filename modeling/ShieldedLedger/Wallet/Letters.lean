import ShieldedLedger.Encryption.RoundTrip
import ShieldedLedger.Wallet.Payments
import ShieldedLedger.Wallet.Selection

/-!
# What a built transfer sends

The notes that the outputs of a transfer commit to are the notes in its ciphertexts: the
payment, which the recipient opens, and the change, which the sender opens.
-/

namespace ShieldedLedger

section Letters

variable [Blake3] [Ciphers]

/-- The owner of the address opens what was encrypted to it. -/
theorem opens_of_encryptNote (agree : Ciphers.Agree) {key : SpendingKey} {note : Note}
    {memo : Bytes.Array memoLen} {ephemeralSeed : Bytes32} {ct : EncryptedOutput}
    (encrypted : encryptNote note key.address memo ephemeralSeed = some ct)
    (owned : note.addrTag = key.addrTag) :
    tryDecrypt ct key.incomingViewingKey = some note := by
  let ephSecret := hashParts ds.x25519 [ephemeralSeed.toList]
  let epk := Ciphers.x25519PublicKey ephSecret
  let kem := Ciphers.encapsulateDeterministic key.kemKeypair.2
    (hashParts ds.kemSeed [ephemeralSeed.toList])
  let aead := deriveAead (Ciphers.diffieHellman ephSecret key.address.x25519Pk) kem.2 epk kem.1
    key.addrTag
  have parts : ct = .ofParts epk kem.1
      (Ciphers.aeadEncrypt aead.1 aead.2 (encodePlaintext note memo)) := by
    rw [encryptNote, kemEncapsulate_address agree] at encrypted
    exact (Option.some.inj encrypted).symm
  have shared : key.incomingViewingKey.dh epk =
      Ciphers.diffieHellman ephSecret key.address.x25519Pk := agree.diffieHellman_comm _ _
  have secret : Ciphers.decapsulate key.incomingViewingKey.kemDk kem.1 = kem.2 :=
    agree.decapsulate_encapsulate _ _
  rw [parts, tryDecrypt_ofParts (agree.length_aeadEncrypt _ _ _ (length_encodePlaintext ..)),
    shared,
    secret]
  change (Ciphers.aeadDecrypt aead.1 aead.2 _).bind _ = _
  rw [agree.aeadDecrypt_aeadEncrypt _ _ _ (length_encodePlaintext ..), Option.bind_some,
    decodePlaintext_encodePlaintext,
    show key.incomingViewingKey.addrTag = note.addrTag from owned.symm]

namespace Wallet

/-- The note that a transfer pays. -/
def paymentNote (recipient : Address) (amount : UInt64) (rngSeed : Bytes32) (tx : TxV1) : Note where
  value := amount
  addrTag := recipient.addrTag
  rho := rhoTransfer (tx.nullifiers.get 0) 0
  rseed := deriveRseed rngSeed 0

/-- The note that a transfer returns. -/
def changeNote (self : Wallet) (amount : UInt64) (rngSeed : Bytes32) (selected : List NoteRecord)
    (tx : TxV1) : Note where
  value := sumValues selected - amount
  addrTag := self.sk.addrTag
  rho := rhoTransfer (tx.nullifiers.get 0) 1
  rseed := deriveRseed rngSeed 1

/-- A transfer out of selected notes commits to a payment and its change and carries both in
its ciphertexts. -/
structure Sends (wallet : Wallet) (recipient : Address) (amount : UInt64) (rngSeed : Bytes32)
    (selected : List NoteRecord) (tx : TxV1) : Prop where
  payment_commitment : tx.commitments.get 0 = (paymentNote recipient amount rngSeed tx).commitment
  change_commitment :
    tx.commitments.get 1 = (wallet.changeNote amount rngSeed selected tx).commitment
  payment_letter : encryptNote (paymentNote recipient amount rngSeed tx) recipient
    (Bytes.filled memoLen 0) (deriveRseed rngSeed 10) = some (tx.encOutputs.get 0)
  change_letter : encryptNote (wallet.changeNote amount rngSeed selected tx) wallet.address
    (Bytes.filled memoLen 0) (deriveRseed rngSeed 11) = some (tx.encOutputs.get 1)

variable {self : Wallet} {recipient : Address} {amount : UInt64} {anchor : Anchor}
  {rngSeed : Bytes32}

theorem letters_of_finishTransfer {inputs : List InputWitness} {firstNf secondNf : Nullifier}
    {paid change : Note} {tx : TxV1}
    (returned : self.finishTransfer recipient anchor rngSeed inputs firstNf secondNf paid change =
      .ok tx) :
    tx.nullifiers.get 0 = firstNf ∧ tx.commitments.get 0 = paid.commitment ∧
      tx.commitments.get 1 = change.commitment ∧
      encryptNote paid recipient (Bytes.filled memoLen 0) (deriveRseed rngSeed 10) =
        some (tx.encOutputs.get 0) ∧
      encryptNote change self.address (Bytes.filled memoLen 0) (deriveRseed rngSeed 11) =
        some (tx.encOutputs.get 1) := by
  unfold finishTransfer at returned
  dsimp only at returned
  split at returned
  · rename_i enc0 enc1 sealed0 sealed1
    split at returned
    · cases returned
    · split at returned
      · cases returned
      · obtain rfl := Except.ok.inj returned
        exact ⟨rfl, rfl, rfl, sealed0, sealed1⟩
  · cases returned

theorem sends_of_buildTransfer {witnessFor : ℕ → Option MerklePath} {tx : TxV1}
    {selected : List NoteRecord} (chosen : self.selectInputs amount = .ok selected)
    (returned : self.buildTransfer recipient amount anchor witnessFor rngSeed = .ok tx) :
    self.Sends recipient amount rngSeed selected tx := by
  simp only [buildTransfer, chosen] at returned
  split at returned
  · cases returned
  · split at returned
    · obtain ⟨rfl, paid, change, sealed0, sealed1⟩ := letters_of_finishTransfer returned
      exact ⟨paid, change, sealed0, sealed1⟩
    · cases returned

end Wallet

end Letters

end ShieldedLedger
