import ShieldedLedger.ProverDev
import ShieldedLedger.Reference
import ShieldedLedger.Tx.Wire

/-!
# The shape of what validates

Stateless validation checks the length of the proof but not the lengths of the
two ciphertexts.  A validated transaction therefore has the uniform wire shape,
and is read back from its encoding, exactly when both ciphertexts have the
length that the encoding reserves for them.
-/

namespace ShieldedLedger

section Shape

variable [Blake3]

namespace TxV1

/-- The `u64` fields that the model holds as numbers are words. -/
structure Words (tx : TxV1) : Prop where
  height : tx.anchor.height < 2 ^ 64
  antispam : tx.antispam.Sized

/-- The encoding has the uniform length and is read back. -/
def Uniform (tx : TxV1) : Prop :=
  tx.encode.length = encodedLen ∧ decode tx.encode = .ok tx

omit [Blake3] in
theorem uniform_iff_sized (tx : TxV1) : tx.Uniform ↔ tx.Sized := by
  constructor
  · intro uniform
    exact (decode_eq_ok.mp uniform.2).1
  · intro sized
    exact ⟨length_encode sized, decode_eq_ok.mpr ⟨sized, rfl⟩⟩

/-- When a validated transaction has the uniform wire shape: exactly when its ciphertexts
have the fixed length. -/
theorem uniform_of_valid_iff {tx : TxV1} (words : tx.Words) {verifier : SpendVerifier}
    {difficultyBits : ℕ} (valid : validateStateless tx verifier difficultyBits = .ok ()) :
    tx.Uniform ↔ ∀ e ∈ tx.encOutputs.toList, e.bytes.length = encOutputLen := by
  rw [uniform_iff_sized]
  constructor
  · intro sized
    exact sized.encOutputs
  · intro lengths
    have proof := ((validateStateless_ok_iff ..).mp valid).1
    exact ⟨words.height, lengths, words.antispam, proof⟩

end TxV1

/-! ## Transactions with a development proof -/

/-- Two ciphertexts of zeros with the given lengths. -/
def zeroOutputs (first second : ℕ) : List.Vector EncryptedOutput txOutputs :=
  ⟨[⟨List.replicate first 0⟩, ⟨List.replicate second 0⟩], rfl⟩

omit [Blake3] in
theorem length_zeroOutputs (size : ℕ) :
    ∀ e ∈ (zeroOutputs size size).toList, e.bytes.length = size := by
  intro e member
  simp only [zeroOutputs, List.Vector.toList_mk, List.mem_cons, List.not_mem_nil, or_false,
    or_self] at member
  rw [member, List.length_replicate]

/-- A transaction with a development proof, and the given anti-spam body for its binding
digest. -/
def devTx (anchor : Anchor) (low high : UInt8)
    (encOutputs : List.Vector EncryptedOutput txOutputs) (antispam : Bytes32 → AntiSpam) : TxV1 :=
  let unsigned : TxV1 :=
    { anchor
      nullifiers := .cons ⟨Bytes.filled 32 low⟩ (.cons ⟨Bytes.filled 32 high⟩ .nil)
      commitments := List.Vector.replicate txOutputs ⟨Bytes.filled 32 0⟩
      encOutputs
      antispam := .pow ⟨0⟩
      proof := [] }
  { unsigned with
    antispam := antispam unsigned.bindingDigest
    proof := devProof unsigned.toPublicInputs }

variable {anchor : Anchor} {low high : UInt8}
  {encOutputs : List.Vector EncryptedOutput txOutputs} {antispam : Bytes32 → AntiSpam}

theorem antispam_devTx :
    (devTx anchor low high encOutputs antispam).antispam =
      antispam (devTx anchor low high encOutputs antispam).bindingDigest := rfl

/-- It is statelessly valid when its nullifiers are in order and its lane is. -/
theorem devTx_valid {difficultyBits : ℕ}
    (order : Bytes.filled 32 low < Bytes.filled 32 high)
    (lane : checkAntiSpam (devTx anchor low high encOutputs antispam) difficultyBits = .ok ()) :
    validateStateless (devTx anchor low high encOutputs antispam) devVerifier difficultyBits =
      .ok () :=
  (validateStateless_ok_iff ..).mpr ⟨length_devProof _, order, lane, verify_devProof _⟩

/-- Any body is in order on the proof-of-work lane without difficulty. -/
theorem checkAntiSpam_pow (tx : TxV1) {solution : PowSolution}
    (lane : tx.antispam = .pow solution) : checkAntiSpam tx 0 = .ok () := by
  simp [checkAntiSpam, lane]

/-- A rate proof is in order when it is bound to the transaction. -/
theorem checkAntiSpam_quota {tx : TxV1} {proof : RateProof} (lane : tx.antispam = .quota proof)
    (bound : proof.x = messageX tx.bindingDigest.toList) (difficultyBits : ℕ) :
    checkAntiSpam tx difficultyBits = .ok () := by
  simp [checkAntiSpam, lane, bound]

end Shape

section Samples

open Reference

/-- A transaction whose first ciphertext is one byte short and whose second is one byte
long. -/
def shiftedTx : TxV1 :=
  devTx ⟨0, Bytes.filled 32 0⟩ 1 2 (zeroOutputs (encOutputLen - 1) (encOutputLen + 1))
    fun _ => .pow ⟨0⟩

/-- The same with both ciphertexts of the fixed length. -/
def straightTx : TxV1 :=
  devTx ⟨0, Bytes.filled 32 0⟩ 1 2 (zeroOutputs encOutputLen encOutputLen) fun _ => .pow ⟨0⟩

theorem words_of_zero {tx : TxV1} (height : tx.anchor.height = 0)
    (lane : tx.antispam = .pow ⟨0⟩) : tx.Words := by
  constructor
  · rw [height]
    decide
  · rw [lane]
    trivial

theorem straightTx_uniform : straightTx.Uniform := by
  have valid : validateStateless straightTx devVerifier 0 = .ok () :=
    devTx_valid (by decide) (checkAntiSpam_pow _ rfl)
  exact (TxV1.uniform_of_valid_iff (words_of_zero rfl rfl) valid).mpr
    (length_zeroOutputs encOutputLen)

/-- The shifted transaction passes validation but is not read back from its encoding. -/
theorem valid_not_uniform :
    ¬∀ (_ : Blake3) (tx : TxV1) (verifier : SpendVerifier) (difficultyBits : ℕ), tx.Words →
      validateStateless tx verifier difficultyBits = .ok () →
      tx.Uniform := by
  intro claim
  have valid : validateStateless shiftedTx devVerifier 0 = .ok () :=
    devTx_valid (by decide) (checkAntiSpam_pow _ rfl)
  have uniform := claim Reference.blake3 shiftedTx devVerifier 0 (words_of_zero rfl rfl) valid
  have sized := (TxV1.decode_eq_ok.mp uniform.2).1
  have short := sized.encOutputs ⟨List.replicate (encOutputLen - 1) 0⟩ (List.mem_cons_self ..)
  rw [List.length_replicate] at short
  exact absurd short (by decide)

end Samples

end ShieldedLedger
