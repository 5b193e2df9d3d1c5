import ShieldedLedger.State.Anchors
import ShieldedLedger.State.Contention
import ShieldedLedger.State.Idle

/-!
# The age of accepted anchors

A checkpoint judges anchors by the set that the seal before it has left, and
evicts only when it seals.  An anchor can therefore be named up to and including
the checkpoint that is a whole window after its own.
-/

namespace ShieldedLedger

/-- The anchors sealed so far: that of genesis and those of the summaries. -/
def sealedIn (start : Anchor) (summaries : List CheckpointSummary) : List Anchor :=
  start :: summaries.map CheckpointSummary.anchor

/-- Accepted transactions name anchors sealed less than `age` checkpoints earlier, and no
transaction that names one is rejected for its anchor. -/
structure AgeBound (age : ℕ) (sealed : List Anchor) (height : ℕ) (batch : List TxV1)
    (summary : CheckpointSummary) : Prop where
  recent : ∀ tx ∈ acceptedTxs batch summary.rejected,
    tx.anchor ∈ sealed ∧ height < tx.anchor.height + age
  never_stale : ∀ i tx, batch[i]? = some tx → tx.anchor ∈ sealed →
    height < tx.anchor.height + age →
    (i, RejectReason.staleOrUnknownAnchor) ∉ summary.rejected

section Ages

variable [Blake3]

namespace Ledger

/-- The valid anchors of a ledger are those sealed in the window of its height. -/
structure Retains (sealed : List Anchor) (ledger : Ledger) : Prop where
  windowed : ledger.tree.Windowed sealed
  last : (sealed.map Anchor.height).getLastD 0 = ledger.height

omit [Blake3] in
theorem Retains.mem_iff {sealed : List Anchor} {ledger : Ledger} (retains : Retains sealed ledger)
    (anchor : Anchor) :
    anchor ∈ ledger.tree.anchors ↔
      anchor ∈ sealed ∧ ledger.height < anchor.height + anchorWindow := by
  have below (member : anchor ∈ sealed) : anchor.height ≤ ledger.height := by
    rw [← retains.last]
    exact retains.windowed.height_le member
  rw [retains.windowed.kept, retains.last, List.mem_filter, decide_eq_true_eq]
  constructor
  · intro both
    have := below both.1
    exact ⟨both.1, by omega⟩
  · intro both
    have := below both.1
    unfold anchorWindow at both ⊢
    exact ⟨both.1, by omega⟩

theorem retains_genesis (emission : EmissionParams) (validators : List ValidatorInfo)
    (difficultyBits : ℕ) (genesisNotes : List (Commitment × UInt64)) :
    let ledger := genesis emission validators difficultyBits genesisNotes
    Retains (sealedIn ledger.currentAnchor []) ledger := by
  intro ledger
  have fresh : ledger.tree.Windowed [ledger.currentAnchor] :=
    ⟨List.pairwise_singleton _ _, by simp [ledger, genesis_eq, currentAnchor, anchorWindow,
      CommitmentTree.root_eq_leavesRoot]⟩
  exact ⟨fresh, rfl⟩

/-- A checkpoint seals the tree it has grown at the next height. -/
theorem applyCheckpoint_seal (self : Ledger) (verifier : SpendVerifier) (batch : List TxV1) :
    ∃ tree : CommitmentTree, tree.anchors = self.tree.anchors ∧
      (self.applyCheckpoint verifier batch).1.tree = (tree.seal (self.height + 1)).1 ∧
      (self.applyCheckpoint verifier batch).2.anchor = (tree.seal (self.height + 1)).2 := by
  refine ⟨_, ?_, rfl, rfl⟩
  simp [mintRewards_eq]

theorem retains_applyCheckpoint {sealed : List Anchor} {self : Ledger}
    (retains : Retains sealed self) (verifier : SpendVerifier) (batch : List TxV1) :
    Retains (sealed ++ [(self.applyCheckpoint verifier batch).2.anchor])
      (self.applyCheckpoint verifier batch).1 := by
  obtain ⟨tree, anchors, sealedTree, anchor⟩ := self.applyCheckpoint_seal verifier batch
  have before : tree.Windowed sealed :=
    ⟨retains.windowed.increasing, anchors.trans retains.windowed.kept⟩
  constructor
  · rw [sealedTree, anchor]
    apply CommitmentTree.windowed_seal before
    intro older member
    have := retains.windowed.height_le member
    rw [retains.last] at this
    exact Nat.lt_succ_of_le this
  · rw [List.map_append, List.map_singleton, List.getLastD_concat, anchor]
    rfl

theorem retains_run {start : Anchor} {self : Ledger} (retains : Retains (sealedIn start []) self)
    (verifier : SpendVerifier) (batches : List (List TxV1)) :
    Retains (sealedIn start (self.run verifier batches).2) (self.run verifier batches).1 := by
  induction batches using List.reverseRecOn with
  | nil => exact retains
  | append_singleton batches batch ih =>
      rw [run, Machine.run_append]
      have next := retains_applyCheckpoint ih verifier batch
      rw [sealedIn, List.cons_append, ← List.map_singleton, ← List.map_append] at next
      exact next

/-! ## Judging anchors -/

/-- Only anchors that the ledger does not hold are stale or unknown. -/
theorem verdict_eq_stale_iff (self : Ledger) (verifier : SpendVerifier) (seen : Finset Nullifier)
    (quota : QuotaRegistry) (tx : TxV1) :
    self.verdict verifier seen quota tx = some .staleOrUnknownAnchor ↔
      tx.anchor ∉ self.tree.anchors := by
  unfold verdict
  split_ifs <;> simp_all

/-- The anchor of an accepted transaction is held by the ledger. -/
theorem anchor_of_accepted {self : Ledger} {verifier : SpendVerifier} {batch : List TxV1}
    {tx : TxV1}
    (accepted : tx ∈ acceptedTxs batch (self.applyCheckpoint verifier batch).2.rejected) :
    tx.anchor ∈ self.tree.anchors := by
  rw [acceptedTxs_applyCheckpoint, mem_acceptedOf] at accepted
  obtain ⟨i, at_i⟩ := List.mem_iff_getElem?.mp accepted
  have found : batch[i]? = some tx := by
    rw [← self.map_fst_verdicts verifier batch, List.getElem?_map, at_i]
    rfl
  rw [self.getElem?_verdicts verifier found] at at_i
  exact ((self.verdict_eq_none_iff ..).mp (Prod.mk.inj (Option.some.inj at_i)).2).anchor

/-- A transaction is rejected for its anchor exactly when the ledger does not hold it. -/
theorem stale_mem_rejected_iff {self : Ledger} {verifier : SpendVerifier} {batch : List TxV1}
    {i : ℕ} {tx : TxV1} (found : batch[i]? = some tx) :
    (i, RejectReason.staleOrUnknownAnchor) ∈ (self.applyCheckpoint verifier batch).2.rejected ↔
      tx.anchor ∉ self.tree.anchors := by
  rw [applyCheckpoint_summary_rejected, (self.tracks_stageAll verifier batch).rejected,
    mem_rejectedOf, self.getElem?_verdicts verifier found, ← self.verdict_eq_stale_iff verifier
      (self.stageAll verifier (batch.take i)).seenThisCheckpoint
      (self.stageAll verifier (batch.take i)).quota]
  simp

/-- One checkpoint accepts the anchors that are up to a whole window old. -/
theorem ageBound_applyCheckpoint {sealed : List Anchor} {self : Ledger}
    (retains : Retains sealed self) (verifier : SpendVerifier) (batch : List TxV1) :
    AgeBound (anchorWindow + 1) sealed (self.height + 1) batch
      (self.applyCheckpoint verifier batch).2 := by
  constructor
  · intro tx accepted
    have «held» := (retains.mem_iff tx.anchor).mp (anchor_of_accepted accepted)
    exact ⟨«held».1, by omega⟩
  · intro i tx found sealedAnchor recent stale
    apply (stale_mem_rejected_iff found).mp stale
    exact (retains.mem_iff tx.anchor).mpr ⟨sealedAnchor, by omega⟩

/-- The age bound of a whole run: checkpoint `k + 1` accepts anchors up to a whole window old,
and none of these is stale. -/
theorem anchor_age_bound (emission : EmissionParams) (validators : List ValidatorInfo)
    (difficultyBits : ℕ) (genesisNotes : List (Commitment × UInt64)) (verifier : SpendVerifier)
    (batches : List (List TxV1)) :
    let start := genesis emission validators difficultyBits genesisNotes
    let summaries := (start.run verifier batches).2
    ∀ k batch summary, batches[k]? = some batch → summaries[k]? = some summary →
      AgeBound (anchorWindow + 1) (sealedIn start.currentAnchor (summaries.take k)) (k + 1) batch
        summary := by
  intro start summaries k batch summary found output
  let before := start.run verifier (batches.take k)
  have past : summaries.take k = before.2 := Machine.take_outputs start batches k
  have height : before.1.height = k := by
    have short : k < batches.length := (List.getElem?_eq_some_iff.mp found).1
    rw [run_height, List.length_take, min_eq_left short.le]
    exact Nat.zero_add k
  have applied : (before.1.applyCheckpoint verifier batch).2 = summary := by
    have step := start.getElem?_summaries verifier batches k
    rw [found] at step
    exact Option.some.inj (step.symm.trans output)
  have retains : Retains (sealedIn start.currentAnchor before.2) before.1 :=
    retains_run (retains_genesis ..) verifier _
  have bound := ageBound_applyCheckpoint retains verifier batch
  rw [applied, height] at bound
  rw [past]
  exact bound

end Ledger

end Ages

section Samples

open Reference

/-- A valid transaction on the anchor that genesis has sealed. -/
def agedTx : TxV1 :=
  devTx freshLedger.currentAnchor 1 2 (zeroOutputs encOutputLen encOutputLen) fun _ => .pow ⟨0⟩

/-- It is accepted by every idle ledger that still holds its anchor. -/
theorem agedTx_accepted {ledger : Ledger} {count : ℕ}
    (idled : Ledger.Idled freshLedger count ledger)
    (anchored : agedTx.anchor ∈ ledger.tree.anchors) :
    agedTx ∈ acceptedTxs [agedTx] (ledger.applyCheckpoint devVerifier [agedTx]).2.rejected := by
  have valid : validateStateless agedTx devVerifier ledger.difficultyBits = .ok () := by
    rw [idled.difficultyBits]
    exact devTx_valid (by decide) (checkAntiSpam_pow _ rfl)
  have unspent : ¬ledger.Conflicts ∅ agedTx := by
    rw [ledger.conflicts_empty_iff, idled.nullifiers]
    intro conflict
    obtain ⟨nf, _, spent⟩ := conflict
    exact Finset.notMem_empty nf spent
  have acceptable : ledger.verdict devVerifier ∅ ledger.quota agedTx = none :=
    (ledger.verdict_eq_none_iff ..).mpr ⟨anchored, valid, unspent, rfl⟩
  have verdicts : ledger.verdicts devVerifier [agedTx] = [(agedTx, none)] :=
    congrArg (fun verdict => [(agedTx, verdict)]) acceptable
  rw [Ledger.acceptedTxs_applyCheckpoint, mem_acceptedOf, verdicts]
  exact List.mem_singleton_self _

/-- In the first checkpoint the genesis anchor is one checkpoint old. -/
theorem anchor_age_bound_sample :
    AgeBound (anchorWindow + 1) [freshLedger.currentAnchor] 1 [agedTx]
      (freshLedger.applyCheckpoint devVerifier [agedTx]).2 :=
  Ledger.anchor_age_bound sampleEmission [] 0 [] devVerifier [[agedTx]] 0 _ _ rfl rfl

/-- After 1023 idle checkpoints the next one accepts a transaction on the genesis anchor,
which is then a whole window old. -/
theorem anchor_age_exceeded :
    ¬∀ (_ : Blake3) (emission : EmissionParams) (validators : List ValidatorInfo)
      (difficultyBits : ℕ) (genesisNotes : List (Commitment × UInt64)) (verifier : SpendVerifier)
      (batches : List (List TxV1)) (start : Ledger) (summaries : List CheckpointSummary),
      start = Ledger.genesis emission validators difficultyBits genesisNotes →
      summaries = (start.run verifier batches).2 →
      ∀ k batch summary, batches[k]? = some batch → summaries[k]? = some summary →
        AgeBound anchorWindow (sealedIn start.currentAnchor (summaries.take k)) (k + 1) batch
          summary := by
  intro claim
  obtain ⟨ledger, reached⟩ : ∃ ledger, ledger =
    (freshLedger.run devVerifier (List.replicate 1023 [])).1 := ⟨_, rfl⟩
  have idled : Ledger.Idled freshLedger 1023 ledger := by
    rw [reached]
    exact Ledger.idled_run freshLedger devVerifier 1023
  have retains : Ledger.Retains (sealedIn freshLedger.currentAnchor
      (freshLedger.run devVerifier (List.replicate 1023 [])).2) ledger := by
    rw [reached]
    exact Ledger.retains_run (Ledger.retains_genesis ..) devVerifier _
  have anchored : agedTx.anchor ∈ ledger.tree.anchors := by
    apply (retains.mem_iff _).mpr
    refine ⟨List.mem_cons_self .., ?_⟩
    rw [idled.height]
    decide
  have found : (List.replicate 1023 [] ++ [[agedTx]])[1023]? = some [agedTx] := by
    rw [List.getElem?_append_right (by rw [List.length_replicate]), List.length_replicate]
    rfl
  have output : (freshLedger.run devVerifier (List.replicate 1023 [] ++ [[agedTx]])).2[1023]? =
      some (ledger.applyCheckpoint devVerifier [agedTx]).2 := by
    rw [Ledger.getElem?_summaries, found, List.take_left' List.length_replicate, reached]
    rfl
  have bound := claim Reference.blake3 sampleEmission [] 0 [] devVerifier _ freshLedger _ rfl rfl
    1023 [agedTx] _ found output
  exact absurd (bound.recent agedTx (agedTx_accepted idled anchored)).2 (by decide)

end Samples

end ShieldedLedger
