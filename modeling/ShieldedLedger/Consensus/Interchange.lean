import ShieldedLedger.Consensus
import ShieldedLedger.State.Invalid
import ShieldedLedger.Tree.Binding
import ShieldedLedger.Tx.Offer

/-!
# Interchangeable transactions

Transactions with one anchor and one offer are interchangeable: no ledger and no
verifier tells them apart, and batches that differ in such transactions only
give equal summaries.
-/

namespace ShieldedLedger

/-! ## Lanes by claim -/

/-- A claim takes up a quota slot. -/
def LaneClaim.takes : LaneClaim → ℕ × Bytes32 → Bool
  | .work _, _ => false
  | .slot epoch rateNullifier, used => decide (used = (epoch, rateNullifier))

/-- One claim serves wherever another does: as much work, or the same slot. -/
def LaneClaim.CoveredBy : LaneClaim → LaneClaim → Prop
  | .work bits, .work bits' => bits ≤ bits'
  | .slot epoch rateNullifier, .slot epoch' rateNullifier' =>
      epoch = epoch' ∧ rateNullifier = rateNullifier'
  | _, _ => False

theorem LaneClaim.eq_of_coveredBy {left right : LaneClaim} (covered : left.CoveredBy right)
    (covers : right.CoveredBy left) : left = right := by
  cases left <;> cases right
  · exact congrArg LaneClaim.work (le_antisymm covered covers)
  · exact covered.elim
  · exact covered.elim
  · rw [covered.1, covered.2]

/-- The lane of a claim is open: a slot is of the coming epoch and free. -/
def Ledger.claimOpen (self : Ledger) (quota : QuotaRegistry) : LaneClaim → Bool
  | .work _ => true
  | .slot epoch rateNullifier => epoch == (self.height + 1) / epochLength &&
      (quota.seen (epoch, rateNullifier)).isNone

/-- Registries with the same slots taken. -/
def SameSlots (left right : QuotaRegistry) : Prop :=
  ∀ slot, (left.seen slot).isSome = (right.seen slot).isSome

theorem Ledger.claimOpen_congr (self : Ledger) {left right : QuotaRegistry}
    (same : SameSlots left right) (lane : LaneClaim) :
    self.claimOpen left lane = self.claimOpen right lane := by
  cases lane with
  | work bits => rfl
  | slot epoch rateNullifier =>
      simp only [claimOpen, ← Option.not_isSome, same (epoch, rateNullifier)]

section Claims

variable [Blake3] {digest : Bytes32} {antispam : AntiSpam} {lane : LaneClaim}

theorem Ledger.laneOpen_eq_claimOpen (self : Ledger) (quota : QuotaRegistry)
    (claimed : antispam.claim digest = some lane) :
    self.laneOpen quota antispam = self.claimOpen quota lane := by
  cases antispam with
  | pow solution =>
      obtain rfl := Option.some.inj claimed
      rfl
  | quota rp =>
      obtain rfl := AntiSpam.lane_of_claim_quota claimed
      rfl

/-- Registering a body takes up the slot it claims. -/
theorem QuotaRegistry.isSome_seen_register (registry : QuotaRegistry)
    (claimed : antispam.claim digest = some lane) (slot : ℕ × Bytes32) :
    ((registry.register antispam).seen slot).isSome =
      (lane.takes slot || (registry.seen slot).isSome) := by
  cases antispam with
  | pow solution =>
      obtain rfl := Option.some.inj claimed
      simp [register, LaneClaim.takes]
  | quota rp =>
      obtain rfl := AntiSpam.lane_of_claim_quota claimed
      rw [register, seen_admitProof]
      by_cases taken : slot = (rp.epoch, rp.rateNullifier) <;> simp [LaneClaim.takes, taken]

end Claims

/-! ## Interchangeable transactions -/

variable [Blake3]

/-- No ledger and no verifier can tell the transactions apart. -/
structure Interchangeable (left right : TxV1) : Prop where
  anchor : left.anchor = right.anchor
  offer : left.offer = right.offer

namespace Interchangeable

variable {left right : TxV1} (alike : Interchangeable left right)
include alike

theorem valid_iff (verifier : SpendVerifier) (difficultyBits : ℕ) :
    validateStateless left verifier difficultyBits = .ok () ↔
      validateStateless right verifier difficultyBits = .ok () := by
  rw [validateStateless_ok_iff_offer, validateStateless_ok_iff_offer, alike.offer]

theorem verdict_eq (ledger : Ledger) (verifier : SpendVerifier) (seen : Finset Nullifier)
    {registry registry' : QuotaRegistry} (slots : SameSlots registry registry') :
    ledger.verdict verifier seen registry left = ledger.verdict verifier seen registry' right := by
  by_cases valid : validateStateless right verifier ledger.difficultyBits = .ok ()
  · obtain ⟨offer, offered, -⟩ := (validateStateless_ok_iff_offer ..).mp valid
    obtain ⟨nullifiers, -⟩ := effects_eq_of_offer (alike.offer.trans offered) offered
    have lanes : ledger.laneOpen registry left.antispam =
        ledger.laneOpen registry' right.antispam := by
      rw [ledger.laneOpen_eq_claimOpen _
        (TxV1.offer_eq_some_iff.mp (alike.offer.trans offered)).2.1,
        ledger.laneOpen_eq_claimOpen _ (TxV1.offer_eq_some_iff.mp offered).2.1,
        ledger.claimOpen_congr slots]
    have conflicts : ledger.Conflicts seen left ↔ ledger.Conflicts seen right := by
      rw [Ledger.Conflicts, Ledger.Conflicts, nullifiers]
    simp only [Ledger.verdict, alike.anchor, ne_eq, alike.valid_iff, conflicts, lanes]
  · simp only [Ledger.verdict, alike.anchor, alike.valid_iff, ne_eq, valid, not_false_eq_true,
      if_true]

/-- One transaction or the other in its place is settled alike. -/
theorem stageTx_sameUpTo (ledger : Ledger) (verifier : SpendVerifier) (i : ℕ)
    {staged staged' : Staged} (same : staged.SameUpTo SameSlots staged') :
    (ledger.stageTx verifier i left staged).SameUpTo SameSlots
      (ledger.stageTx verifier i right staged') := by
  have verdict : ledger.verdict verifier staged.seenThisCheckpoint staged.quota left =
      ledger.verdict verifier staged'.seenThisCheckpoint staged'.quota right := by
    obtain ⟨registry, rfl, slots⟩ := same
    exact alike.verdict_eq ledger verifier _ slots
  have offered (accepted : ledger.verdict verifier staged'.seenThisCheckpoint staged'.quota right =
      none) : ∃ offer, right.offer = some offer := by
    obtain ⟨offer, offered, -⟩ := (validateStateless_ok_iff_offer ..).mp
      ((ledger.verdict_eq_none_iff ..).mp accepted).valid
    exact ⟨offer, offered⟩
  rw [Ledger.stageTx_eq, Ledger.stageTx_eq, verdict]
  refine Ledger.sameUpTo_settle same i (fun accepted => ?_)
    fun accepted registry registry' slots => ?_
  · obtain ⟨offer, offered⟩ := offered accepted
    exact effects_eq_of_offer (alike.offer.trans offered) offered
  · obtain ⟨offer, offered⟩ := offered accepted
    intro slot
    rw [registry.isSome_seen_register
        (TxV1.offer_eq_some_iff.mp (alike.offer.trans offered)).2.1,
      registry'.isSome_seen_register (TxV1.offer_eq_some_iff.mp offered).2.1, slots slot]

end Interchangeable

namespace Ledger

variable (self : Ledger) (verifier : SpendVerifier)

theorem stageFrom_sameUpTo {ordered ordered' : List TxV1}
    (alike : List.Forall₂ Interchangeable ordered ordered') :
    ∀ (i : ℕ) {staged staged' : Staged}, staged.SameUpTo SameSlots staged' →
      (self.stageFrom verifier i ordered staged).SameUpTo SameSlots
        (self.stageFrom verifier i ordered' staged') := by
  induction alike with
  | nil => exact fun _ _ _ same => same
  | cons one _ ih => exact fun i _ _ same => ih (i + 1) (one.stageTx_sameUpTo self verifier i same)

/-- Batches of interchangeable transactions give equal summaries. -/
theorem summary_eq_of_interchangeable {ordered ordered' : List TxV1}
    (alike : List.Forall₂ Interchangeable ordered ordered') :
    (self.applyCheckpoint verifier ordered).2 = (self.applyCheckpoint verifier ordered').2 := by
  have initial : (Staged.init self.quota).SameUpTo SameSlots (Staged.init self.quota) :=
    ⟨self.quota, rfl, fun _ => rfl⟩
  obtain ⟨registry, staged, -⟩ := self.stageFrom_sameUpTo verifier alike 0 initial
  have same : self.stageAll verifier ordered =
      { self.stageAll verifier ordered' with quota := registry } := staged
  have leaves : (self.applyCheckpoint verifier ordered).1.tree.leaves =
      (self.applyCheckpoint verifier ordered').1.tree.leaves := by
    rw [applyCheckpoint_leaves, applyCheckpoint_leaves, same]
  have anchor : (self.applyCheckpoint verifier ordered).1.currentAnchor =
      (self.applyCheckpoint verifier ordered').1.currentAnchor := by
    simp only [currentAnchor, applyCheckpoint_height, CommitmentTree.root_eq_leavesRoot, leaves]
  rw [summary_eq, summary_eq, anchor, same, applyCheckpoint_supply, applyCheckpoint_supply]

end Ledger

end ShieldedLedger
