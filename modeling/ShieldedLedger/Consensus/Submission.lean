import ShieldedLedger.Consensus.Interchange

/-!
# Submission order

The linearisation keeps the first transaction of every binding digest, and the
digest covers neither the proof nor the anti-spam body.  What a round commits is
therefore independent of the submission order exactly when submitted
transactions of one digest are interchangeable.
-/

namespace ShieldedLedger

/-! ## Probes

A probe is a ledger that holds one anchor and has one quota slot left. -/

/-- The height at which a claimed slot is of the coming epoch. -/
def LaneClaim.height : LaneClaim → ℕ
  | .work _ => 0
  | .slot epoch _ => epochLength * epoch

/-- A ledger with one anchor and only the claimed slot free. -/
def Ledger.probe (emission : EmissionParams) (anchor : Anchor) (lane : LaneClaim)
    (difficultyBits : ℕ) : Ledger where
  tree := ⟨[], [anchor]⟩
  nullifiers := ∅
  quota := ⟨fun slot => if lane.takes slot then none else some (0, 0)⟩
  height := lane.height
  supply := 0
  emission := emission
  validators := []
  difficultyBits := difficultyBits

namespace Ledger

variable (emission : EmissionParams) (anchor : Anchor) {lane other : LaneClaim}

theorem claimOpen_probe (difficultyBits : ℕ) :
    (probe emission anchor lane difficultyBits).claimOpen
      (probe emission anchor lane difficultyBits).quota lane = true := by
  cases lane with
  | work bits => rfl
  | slot epoch rateNullifier =>
      have epochEq : (epochLength * epoch + 1) / epochLength = epoch := by
        simp only [epochLength]
        omega
      simp [claimOpen, probe, LaneClaim.height, epochEq, LaneClaim.takes]

/-- Some probe of a claim refuses a claim that does not cover it. -/
theorem exists_probe (uncovered : ¬lane.CoveredBy other) :
    ∃ difficultyBits, lane.Meets difficultyBits ∧
      (other.Meets difficultyBits →
        (probe emission anchor lane difficultyBits).claimOpen
          (probe emission anchor lane difficultyBits).quota other = false) := by
  cases lane with
  | work bits =>
      refine ⟨bits, le_refl bits, fun meets => ?_⟩
      cases other with
      | work bits' => exact absurd meets uncovered
      | slot epoch rateNullifier => simp [claimOpen, probe, LaneClaim.takes]
  | slot epoch rateNullifier =>
      cases other with
      | work bits =>
          exact ⟨bits + 1, trivial, fun meets => absurd meets (by simp [LaneClaim.Meets])⟩
      | slot epoch' rateNullifier' =>
          refine ⟨0, trivial, fun _ => ?_⟩
          have different : ¬(epoch' = epoch ∧ rateNullifier' = rateNullifier) := by
            rintro ⟨rfl, rfl⟩
            exact uncovered ⟨rfl, rfl⟩
          simp [claimOpen, probe, LaneClaim.takes, different]

variable [Blake3] {left right : TxV1} {offer : Offer}

/-- A probe accepts the transaction it is made for. -/
theorem verdict_probe (offered : left.offer = some offer) {difficultyBits : ℕ}
    (meets : offer.lane.Meets difficultyBits) :
    (probe emission left.anchor offer.lane difficultyBits).verdict offer.verifier ∅
      (probe emission left.anchor offer.lane difficultyBits).quota left = none := by
  refine (verdict_eq_none_iff ..).mpr
    { anchor := List.mem_singleton_self _
      valid := (validateStateless_ok_iff_offer ..).mpr
        ⟨offer, offered, Offer.passes_verifier_iff.mpr ⟨meets, rfl, rfl⟩⟩
      fresh := ?_
      lane := ?_ }
  · rw [conflicts_empty_iff]
    rintro ⟨nf, -, spent⟩
    exact absurd spent (Finset.notMem_empty nf)
  · rw [laneOpen_eq_claimOpen _ _ (TxV1.offer_eq_some_iff.mp offered).2.1]
    exact claimOpen_probe emission _ difficultyBits

/-- Unless another transaction makes an offer that covers its own, some probe
accepts a transaction and rejects the other. -/
theorem exists_separating (offered : left.offer = some offer)
    (uncovered : ∀ other, right.offer = some other → other.publicInputs = offer.publicInputs →
      other.proof = offer.proof → ¬offer.lane.CoveredBy other.lane) :
    ∃ difficultyBits,
      (probe emission left.anchor offer.lane difficultyBits).verdict offer.verifier ∅
        (probe emission left.anchor offer.lane difficultyBits).quota left = none ∧
      (probe emission left.anchor offer.lane difficultyBits).verdict offer.verifier ∅
        (probe emission left.anchor offer.lane difficultyBits).quota right ≠ none := by
  by_cases rival : ∃ other, right.offer = some other ∧
      other.publicInputs = offer.publicInputs ∧ other.proof = offer.proof
  · obtain ⟨other, offered', inputs, proof⟩ := rival
    obtain ⟨difficultyBits, meets, refused⟩ :=
      exists_probe emission left.anchor (uncovered other offered' inputs proof)
    refine ⟨difficultyBits, verdict_probe emission offered meets, fun accepted => ?_⟩
    have acceptable := (verdict_eq_none_iff ..).mp accepted
    obtain ⟨own, offered'', passes⟩ := (validateStateless_ok_iff_offer ..).mp acceptable.valid
    obtain rfl := Option.some.inj (offered'.symm.trans offered'')
    have «open» := acceptable.lane
    rw [laneOpen_eq_claimOpen _ _ (TxV1.offer_eq_some_iff.mp offered').2.1,
      refused passes.lane] at «open»
    cases «open»
  · obtain ⟨difficultyBits, meets⟩ := offer.lane.exists_meets
    refine ⟨difficultyBits, verdict_probe emission offered meets, fun accepted => rival ?_⟩
    obtain ⟨other, offered', passes⟩ := (validateStateless_ok_iff_offer ..).mp
      ((verdict_eq_none_iff ..).mp accepted).valid
    exact ⟨other, offered', (Offer.passes_verifier_iff.mp passes).2⟩

end Ledger

/-! ## What a round commits -/

section Rounds

variable [Blake3]

namespace Cluster

/-- Root, accepted count, rejected list and supply of a round; nothing for a cluster
without replicas. -/
def committed (self : Cluster) (verifier : SpendVerifier) (submitted : List TxV1) :
    Option (Bytes32 × ℕ × List (ℕ × RejectReason) × UInt64) :=
  (self.commitRound verifier submitted).map fun round =>
    (round.2.root, round.2.accepted, round.2.rejected, round.2.totalSupply)

/-- A round reports what its first replica did. -/
theorem committed_eq (self : Cluster) (verifier : SpendVerifier) (submitted : List TxV1) :
    self.committed verifier submitted = self.replicas.head?.map fun replica =>
      let summary := (replica.applyCheckpoint verifier (commitOrder submitted)).2
      (summary.anchor.root, summary.accepted, summary.rejected, summary.totalSupply) := by
  obtain ⟨replicas, supply⟩ := self
  cases replicas with
  | nil => rfl
  | cons first rest => rfl

end Cluster

/-- Reordering keeps the number of transactions of smaller digest. -/
theorem length_order_filter_of_perm {left right : List TxV1} (reordered : left.Perm right)
    (keep : TxV1 → Bool) :
    (FirstWins.order TxV1.bindingDigest (left.filter keep)).length =
      (FirstWins.order TxV1.bindingDigest (right.filter keep)).length :=
  (FirstWins.forall₂_order fun _ =>
    ((reordered.filter keep).map TxV1.bindingDigest).mem_iff).length_eq

/-- If the order does not matter, a ledger that finds every other digest invalid
judges transactions of one digest alike. -/
theorem verdict_eq_of_committed {submitted : List TxV1} (verifier : SpendVerifier)
    (ledger : Ledger)
    (same : ∀ reordered : List TxV1, submitted.Perm reordered →
      Cluster.committed ⟨[ledger], 0⟩ verifier submitted =
        Cluster.committed ⟨[ledger], 0⟩ verifier reordered)
    {left right : TxV1} (leftMem : left ∈ submitted) (rightMem : right ∈ submitted)
    (digest : left.bindingDigest = right.bindingDigest)
    (others : ∀ tx : TxV1, tx.bindingDigest ≠ left.bindingDigest →
      validateStateless tx verifier ledger.difficultyBits ≠ .ok ()) :
    ledger.verdict verifier ∅ ledger.quota left = ledger.verdict verifier ∅ ledger.quota right := by
  have rejected (tx : TxV1) (member : tx ∈ submitted) : rejectedOf (ledger.verdicts verifier
      (commitOrder submitted)) = rejectedOf (ledger.verdicts verifier
        (commitOrder (tx :: submitted.erase tx))) := by
    have agree := same _ (List.perm_cons_erase member)
    simp only [Cluster.committed_eq, List.head?_cons, Option.map_some, Option.some.injEq,
      Prod.mk.injEq, Ledger.applyCheckpoint_summary_rejected] at agree
    rw [← (ledger.tracks_stageAll verifier _).rejected,
      ← (ledger.tracks_stageAll verifier _).rejected]
    exact agree.2.2.1
  have judged (tx : TxV1) (member : tx ∈ submitted) (same : tx.bindingDigest = left.bindingDigest) :
      (ledger.verdicts verifier (commitOrder (tx :: submitted.erase tx)))[
        (FirstWins.order TxV1.bindingDigest (submitted.filter fun tx =>
          decide (tx.bindingDigest < left.bindingDigest))).length]? =
        some (tx, ledger.verdict verifier ∅ ledger.quota tx) := by
    have first : FirstWins.first TxV1.bindingDigest left.bindingDigest (tx :: submitted.erase tx) =
        some tx := by
      simp [FirstWins.first, same]
    rw [commitOrder, FirstWins.order_cut left.bindingDigest, first,
      length_order_filter_of_perm (List.perm_cons_erase member)]
    refine ledger.getElem?_verdicts_of_invalid verifier _ _ fun other earlier =>
      others other (ne_of_lt ?_)
    exact of_decide_eq_true ((FirstWins.mem_order_filter
      (fun digest => decide (digest < left.bindingDigest))).mp earlier).1
  exact verdict_eq_of_rejectedOf
    ((rejected left leftMem).symm.trans (rejected right rightMem))
    (judged left leftMem rfl) (judged right rightMem digest.symm)

/-- The order of submission has no influence on any round. -/
def OrderIrrelevant (submitted : List TxV1) : Prop :=
  ∀ (verifier : SpendVerifier) (cluster : Cluster) (reordered : List TxV1),
    submitted.Perm reordered →
      cluster.committed verifier submitted = cluster.committed verifier reordered

namespace OrderIrrelevant

variable {submitted : List TxV1} (irrelevant : OrderIrrelevant submitted) {left right : TxV1}
  (leftMem : left ∈ submitted) (rightMem : right ∈ submitted)
  (digest : left.bindingDigest = right.bindingDigest)
include irrelevant leftMem rightMem digest

theorem anchor_eq : left.anchor = right.anchor := by
  by_contra different
  let blind : SpendVerifier := ⟨fun _ _ => .error .invalid⟩
  have invalid (tx : TxV1) (difficultyBits : ℕ) :
      validateStateless tx blind difficultyBits ≠ .ok () := by
    intro valid
    obtain ⟨offer, -, passes⟩ := (validateStateless_ok_iff_offer ..).mp valid
    cases passes.proof
  have judged := verdict_eq_of_committed blind
    (Ledger.probe sampleEmission left.anchor (.work 0) 0)
    (fun _ => irrelevant blind _ _) leftMem rightMem digest fun tx _ => invalid tx _
  have stale : right.anchor ∉ [left.anchor] := by
    simpa using fun equal => different (Eq.symm equal)
  simp [Ledger.verdict, Ledger.probe, invalid, stale] at judged

theorem exists_covering {offer : Offer} (offered : left.offer = some offer) :
    ∃ other, right.offer = some other ∧ other.publicInputs = offer.publicInputs ∧
      other.proof = offer.proof ∧ offer.lane.CoveredBy other.lane := by
  by_contra uncovered
  push Not at uncovered
  obtain ⟨difficultyBits, accepted, rejected⟩ :=
    Ledger.exists_separating sampleEmission offered uncovered
  have judged := verdict_eq_of_committed offer.verifier
    (Ledger.probe sampleEmission left.anchor offer.lane difficultyBits)
    (fun _ => irrelevant offer.verifier _ _) leftMem rightMem digest fun tx other =>
      Offer.validateStateless_verifier_ne_ok (by rwa [digest_of_offer offered]) difficultyBits
  exact rejected (judged.symm.trans accepted)

theorem offer_eq : left.offer = right.offer := by
  cases leftOffer : left.offer with
  | some offer =>
      obtain ⟨other, rightOffer, inputs, proof, lane⟩ :=
        irrelevant.exists_covering leftMem rightMem digest leftOffer
      obtain ⟨offer', leftOffer', -, -, lane'⟩ :=
        irrelevant.exists_covering rightMem leftMem digest.symm rightOffer
      obtain rfl := Option.some.inj (leftOffer.symm.trans leftOffer')
      have lanes : offer.lane = other.lane := LaneClaim.eq_of_coveredBy lane lane'
      rw [rightOffer, Offer.ext inputs.symm proof.symm lanes]
  | none =>
      cases rightOffer : right.offer with
      | none => rfl
      | some offer =>
          obtain ⟨other, leftOffer', -⟩ :=
            irrelevant.exists_covering rightMem leftMem digest.symm rightOffer
          rw [leftOffer] at leftOffer'
          cases leftOffer'

end OrderIrrelevant

/-- No round depends on the submission order exactly when submitted transactions of
one digest have one anchor and either offer nothing, any of them, or offer the
same public inputs, proof and lane claim. -/
theorem committed_perm_iff (submitted : List TxV1) :
    (∀ (verifier : SpendVerifier) (cluster : Cluster) (reordered : List TxV1),
      submitted.Perm reordered →
        cluster.committed verifier submitted = cluster.committed verifier reordered) ↔
      ∀ left ∈ submitted, ∀ right ∈ submitted, left.bindingDigest = right.bindingDigest →
        left.anchor = right.anchor ∧ left.offer = right.offer := by
  constructor
  · exact fun irrelevant left leftMem right rightMem digest =>
      ⟨OrderIrrelevant.anchor_eq irrelevant leftMem rightMem digest,
        OrderIrrelevant.offer_eq irrelevant leftMem rightMem digest⟩
  · intro interchangeable verifier cluster reordered permuted
    have alike : List.Forall₂ Interchangeable (commitOrder submitted) (commitOrder reordered) := by
      refine (FirstWins.forall₂_order fun _ =>
        (permuted.map TxV1.bindingDigest).mem_iff).imp fun left right related => ?_
      obtain ⟨anchor, offer⟩ := interchangeable left related.1 right
        (permuted.mem_iff.mpr related.2.1) related.2.2
      exact ⟨anchor, offer⟩
    simp only [Cluster.committed_eq, Ledger.summary_eq_of_interchangeable _ verifier alike]

end Rounds

section Samples

open Reference

/-- The sample spend with its development proof. -/
def provenTx : TxV1 := { sampleTx with proof := devProof sampleTx.toPublicInputs }

def sampleCluster : Cluster :=
  Cluster.new 1 sampleEmission sampleValidators 0
    ([sampleNote].map fun note => (note.commitment, note.value))

/-- Whether the honest spend or its twin with an empty proof is submitted first
decides whether the round accepts the spend. -/
theorem committed_depends_on_order :
    ¬∀ (_ : Blake3) (verifier : SpendVerifier) (cluster : Cluster)
      (submitted reordered : List TxV1), submitted.Perm reordered →
        cluster.committed verifier submitted = cluster.committed verifier reordered := by
  intro claim
  have same := claim Reference.blake3 devVerifier sampleCluster [provenTx, sampleTx]
    [sampleTx, provenTx] (.swap ..)
  have counts := congrArg (Option.map fun outcome => outcome.2.1) same
  exact absurd counts (by decide +kernel)

end Samples

end ShieldedLedger
