import ShieldedLedger.AntispamPow
import ShieldedLedger.AntispamQuota
import ShieldedLedger.Encryption

/-!
# Transactions and stateless validation

Every transaction has two nullifiers, two commitments and two ciphertexts.  The
binding digest covers all of them and the anchor, but neither the proof nor the
anti-spam body; both of these commit to the digest instead.
-/

namespace ShieldedLedger

/-- Which anti-spam lane a transaction used. -/
inductive AntiSpam where
  | pow (solution : PowSolution)
  | quota (proof : RateProof)
  deriving DecidableEq

structure TxV1 where
  anchor : Anchor
  nullifiers : List.Vector Nullifier txInputs
  commitments : List.Vector Commitment txOutputs
  encOutputs : List.Vector EncryptedOutput txOutputs
  antispam : AntiSpam
  proof : List UInt8
  deriving DecidableEq

inductive TxError where
  | malformed
  | nullifierOrder
  | powInvalid
  | quotaInvalid
  | proofInvalid
  | proofSize
  deriving DecidableEq

namespace TxV1

/-- Everything the binding digest covers, as hashed. -/
def bindingParts (tx : TxV1) : List (List UInt8) :=
  leBytes tx.anchor.height :: tx.anchor.root.toList ::
    (tx.nullifiers.toList.map fun nf => nf.bytes.toList) ++
    (tx.commitments.toList.map fun cm => cm.bytes.toList) ++
    (tx.encOutputs.toList.map fun enc => enc.bytes)

/-- The two nullifiers of a transaction, in wire order. -/
theorem nullifiers_toList (tx : TxV1) :
    tx.nullifiers.toList = [tx.nullifiers.get 0, tx.nullifiers.get 1] := by
  obtain ⟨anchor, ⟨nullifiers, len⟩, rest⟩ := tx
  match nullifiers, len with
  | [_, _], _ => rfl

variable [Blake3]

/-- Digest binding every field except the proof and the anti-spam body. -/
def bindingDigest (tx : TxV1) : Bytes32 := hashParts ds.txBinding tx.bindingParts

/-- Wire transactions are always transfers: their mint value is zero. -/
def toPublicInputs (tx : TxV1) : SpendPublicInputs where
  anchor := tx.anchor
  nullifiers := tx.nullifiers.toList
  commitments := tx.commitments.toList
  bindingDigest := tx.bindingDigest
  mintValue := 0

end TxV1

variable [Blake3]

/-- The anti-spam artifact belongs to this transaction. -/
def checkAntiSpam (tx : TxV1) (difficultyBits : ℕ) : Except TxError Unit :=
  match tx.antispam with
  | .pow solution =>
      if !powVerify tx.bindingDigest solution difficultyBits then .error .powInvalid else .ok ()
  | .quota proof =>
      if proof.x ≠ messageX tx.bindingDigest.toList then .error .quotaInvalid else .ok ()

/-- Everything checkable without ledger state: cheap structural checks, then
anti-spam, then the proof. -/
def validateStateless (tx : TxV1) (verifier : SpendVerifier) (difficultyBits : ℕ) :
    Except TxError Unit :=
  if tx.proof.length ≠ proofBucket then .error .proofSize
  else if (tx.nullifiers.get 0).bytes ≥ (tx.nullifiers.get 1).bytes then .error .nullifierOrder
  else match checkAntiSpam tx difficultyBits with
    | .error error => .error error
    | .ok () =>
        match verifier.verify tx.toPublicInputs tx.proof with
        | .error _ => .error .proofInvalid
        | .ok () => .ok ()

/-- A transaction is statelessly valid exactly when each check passes. -/
theorem validateStateless_ok_iff (tx : TxV1) (verifier : SpendVerifier) (difficultyBits : ℕ) :
    validateStateless tx verifier difficultyBits = .ok () ↔
      tx.proof.length = proofBucket ∧
      (tx.nullifiers.get 0).bytes < (tx.nullifiers.get 1).bytes ∧
      checkAntiSpam tx difficultyBits = .ok () ∧
      verifier.verify tx.toPublicInputs tx.proof = .ok () := by
  unfold validateStateless
  constructor
  · intro valid
    split at valid
    · cases valid
    rename_i size
    split at valid
    · cases valid
    rename_i order
    split at valid
    · cases valid
    rename_i antispam
    split at valid
    · cases valid
    rename_i verified
    exact ⟨not_not.mp size, not_le.mp order, antispam, verified⟩
  · rintro ⟨size, order, antispam, verified⟩
    rw [if_neg (not_not.mpr size), if_neg (not_le.mpr order), antispam]
    simp only [verified]

end ShieldedLedger
