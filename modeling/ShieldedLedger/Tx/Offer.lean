import ShieldedLedger.Tx

/-!
# What stateless validation leaves of a transaction

Stateless validation reads the public inputs, the proof and the anti-spam body.
A transaction that fails the checks which no verifier and no difficulty can
change offers nothing; any other offers its public inputs, its proof and its
claim to an anti-spam lane.
-/

namespace ShieldedLedger

/-- A claim to an anti-spam lane: leading zero bits, or the quota slot used. -/
inductive LaneClaim where
  | work (bits : ℕ)
  | slot (epoch : ℕ) (rateNullifier : Bytes32)
  deriving DecidableEq

/-- What stateless validation judges. -/
@[ext] structure Offer where
  publicInputs : SpendPublicInputs
  proof : List UInt8
  lane : LaneClaim
  deriving DecidableEq

/-- The claim is good enough for a difficulty; a quota slot always is. -/
def LaneClaim.Meets : LaneClaim → ℕ → Prop
  | .work bits, difficultyBits => difficultyBits ≤ bits
  | .slot _ _, _ => True

theorem LaneClaim.exists_meets (lane : LaneClaim) :
    ∃ difficultyBits, lane.Meets difficultyBits := by
  cases lane with
  | work bits => exact ⟨bits, le_refl bits⟩
  | slot epoch rateNullifier => exact ⟨0, trivial⟩

/-- A verifier and a difficulty let the offer pass. -/
structure Offer.Passes (offer : Offer) (verifier : SpendVerifier) (difficultyBits : ℕ) : Prop where
  lane : offer.lane.Meets difficultyBits
  proof : verifier.verify offer.publicInputs offer.proof = .ok ()

section Validation

variable [Blake3]

/-- The claim of an anti-spam body under a digest; a rate proof of another message
claims nothing. -/
def AntiSpam.claim (digest : Bytes32) : AntiSpam → Option LaneClaim
  | .pow solution => some (.work (leadingZeroBits (powHash digest solution.nonce).toList))
  | .quota rp =>
      if rp.x = messageX digest.toList then some (.slot rp.epoch rp.rateNullifier) else none

/-- A rate proof that claims a slot claims its own. -/
theorem AntiSpam.lane_of_claim_quota {digest : Bytes32} {rp : RateProof} {lane : LaneClaim}
    (claimed : (AntiSpam.quota rp).claim digest = some lane) :
    lane = .slot rp.epoch rp.rateNullifier := by
  rw [claim] at claimed
  split at claimed
  · exact (Option.some.inj claimed).symm
  · cases claimed

/-- The offer of a transaction with a full-size proof, ordered nullifiers and a
claim to a lane. -/
def TxV1.offer (tx : TxV1) : Option Offer :=
  if tx.proof.length = proofBucket ∧ (tx.nullifiers.get 0).bytes < (tx.nullifiers.get 1).bytes then
    (tx.antispam.claim tx.bindingDigest).map fun lane => ⟨tx.toPublicInputs, tx.proof, lane⟩
  else none

theorem TxV1.offer_eq_some_iff {tx : TxV1} {offer : Offer} :
    tx.offer = some offer ↔
      (tx.proof.length = proofBucket ∧
        (tx.nullifiers.get 0).bytes < (tx.nullifiers.get 1).bytes) ∧
      tx.antispam.claim tx.bindingDigest = some offer.lane ∧
      tx.toPublicInputs = offer.publicInputs ∧ tx.proof = offer.proof := by
  obtain ⟨publicInputs, proof, lane⟩ := offer
  unfold TxV1.offer
  split
  · rename_i shape
    simp only [Option.map_eq_some_iff, Offer.mk.injEq, shape, and_self, true_and]
    constructor
    · rintro ⟨lane, claimed, sameInputs, sameProof, rfl⟩
      exact ⟨claimed, sameInputs, sameProof⟩
    · rintro ⟨claimed, sameInputs, sameProof⟩
      exact ⟨lane, claimed, sameInputs, sameProof, rfl⟩
  · rename_i shape
    constructor
    · exact fun offered => nomatch offered
    · exact fun offered => absurd offered.1 shape

/-- The anti-spam check passes when the body makes a claim good enough. -/
theorem checkAntiSpam_ok_iff (tx : TxV1) (difficultyBits : ℕ) :
    checkAntiSpam tx difficultyBits = .ok () ↔
      ∃ lane, tx.antispam.claim tx.bindingDigest = some lane ∧ lane.Meets difficultyBits := by
  unfold checkAntiSpam
  cases tx.antispam with
  | pow solution => simp [AntiSpam.claim, LaneClaim.Meets, powVerify]
  | quota rp =>
      by_cases bound : rp.x = messageX tx.bindingDigest.toList
      · simp [AntiSpam.claim, LaneClaim.Meets, bound]
      · simp [AntiSpam.claim, bound]

/-- Validation passes exactly when there is an offer and it passes. -/
theorem validateStateless_ok_iff_offer (tx : TxV1) (verifier : SpendVerifier)
    (difficultyBits : ℕ) :
    validateStateless tx verifier difficultyBits = .ok () ↔
      ∃ offer, tx.offer = some offer ∧ offer.Passes verifier difficultyBits := by
  rw [validateStateless_ok_iff, checkAntiSpam_ok_iff]
  constructor
  · rintro ⟨size, order, ⟨lane, claimed, meets⟩, verified⟩
    exact ⟨⟨tx.toPublicInputs, tx.proof, lane⟩,
      TxV1.offer_eq_some_iff.mpr ⟨⟨size, order⟩, claimed, rfl, rfl⟩, meets, verified⟩
  · rintro ⟨offer, offered, meets, verified⟩
    obtain ⟨⟨size, order⟩, claimed, sameInputs, sameProof⟩ := TxV1.offer_eq_some_iff.mp offered
    exact ⟨size, order, ⟨offer.lane, claimed, meets⟩, by rw [sameInputs, sameProof, verified]⟩

/-- Transactions with one offer have the same effects. -/
theorem effects_eq_of_offer {left right : TxV1} {offer : Offer}
    (leftOffer : left.offer = some offer)
    (rightOffer : right.offer = some offer) :
    left.nullifiers = right.nullifiers ∧ left.commitments = right.commitments := by
  obtain ⟨-, -, leftInputs, -⟩ := TxV1.offer_eq_some_iff.mp leftOffer
  obtain ⟨-, -, rightInputs, -⟩ := TxV1.offer_eq_some_iff.mp rightOffer
  have same : left.toPublicInputs = right.toPublicInputs := leftInputs.trans rightInputs.symm
  exact ⟨List.Vector.eq _ _ (congrArg SpendPublicInputs.nullifiers same),
    List.Vector.eq _ _ (congrArg SpendPublicInputs.commitments same)⟩

/-- The public inputs of an offer carry the digest of the transaction. -/
theorem digest_of_offer {tx : TxV1} {offer : Offer} (offered : tx.offer = some offer) :
    offer.publicInputs.bindingDigest = tx.bindingDigest :=
  congrArg SpendPublicInputs.bindingDigest (TxV1.offer_eq_some_iff.mp offered).2.2.1.symm

end Validation

/-! ## A verifier for one offer -/

/-- The verifier that accepts the proof of one offer and no other. -/
def Offer.verifier (offer : Offer) : SpendVerifier where
  verify pi proof :=
    if pi = offer.publicInputs ∧ proof = offer.proof then .ok () else .error .invalid

theorem Offer.passes_verifier_iff {offer other : Offer} {difficultyBits : ℕ} :
    other.Passes offer.verifier difficultyBits ↔
      other.lane.Meets difficultyBits ∧ other.publicInputs = offer.publicInputs ∧
        other.proof = offer.proof := by
  constructor
  · rintro ⟨lane, verified⟩
    simp only [Offer.verifier] at verified
    split at verified
    · rename_i same
      exact ⟨lane, same⟩
    · cases verified
  · rintro ⟨lane, same⟩
    exact ⟨lane, if_pos same⟩

/-- No transaction of another digest passes it. -/
theorem Offer.validateStateless_verifier_ne_ok [Blake3] {offer : Offer} {tx : TxV1}
    (other : tx.bindingDigest ≠ offer.publicInputs.bindingDigest) (difficultyBits : ℕ) :
    validateStateless tx offer.verifier difficultyBits ≠ .ok () := by
  intro valid
  obtain ⟨own, offered, passes⟩ := (validateStateless_ok_iff_offer ..).mp valid
  have same := (Offer.passes_verifier_iff.mp passes).2.1
  exact other ((digest_of_offer offered).symm.trans (congrArg SpendPublicInputs.bindingDigest same))

end ShieldedLedger
