import ShieldedLedger.ProverDev.Statement
import ShieldedLedger.State.Anchors
import ShieldedLedger.Storage.Contents
import ShieldedLedger.Tree.Binding

/-!
# Restarting from a snapshot

A snapshot keeps the leaves, the nullifiers, the height and the supply.  The
anchors before the current one and the quota registry are not persisted, so the
restored ledger agrees with the original as long as no transaction depends on
either.
-/

namespace ShieldedLedger

section Resume

variable [Blake3]

section Restoring

variable [Redb] (lawful : OrderedTables.Lawful)
include lawful

/-- Restoring rebuilds the ledger from the contents of the store; the anchor of the
stored height is the only one, and the quota registry is empty. -/
theorem Ledger.restore_of_holds {store : Store} {leaves : List Bytes32}
    {nullifiers : Finset Nullifier} (holds : store.Holds leaves nullifiers)
    (emission : EmissionParams) (validators : List ValidatorInfo) (difficultyBits : ℕ) :
    Ledger.restore store emission validators difficultyBits =
      .ok {
        tree := ⟨leaves, [⟨store.height.getD 0, leavesRoot leaves⟩]⟩
        nullifiers
        quota := QuotaRegistry.new
        height := store.height.getD 0
        supply := store.supply.getD 0
        emission, validators, difficultyBits } := by
  obtain ⟨loaded, read, same⟩ := holds.loadNullifiers lawful
  simp only [restore, Store.loadTree, holds.loadLeaves lawful, read, Except.map, bind, Except.bind,
    same]
  simp [CommitmentTree.fromRawLeaves, CommitmentTree.seal, CommitmentTree.new,
    CommitmentTree.evict, CommitmentTree.root_eq_leavesRoot, anchorWindow]

/-- Restoring a snapshot in an empty store forgets the older anchors and the quota
registry, and nothing else. -/
theorem Ledger.restore_persist (self : Ledger) :
    Ledger.restore (self.persist Store.open) self.emission self.validators self.difficultyBits =
      .ok { self with
        tree := ⟨self.tree.leaves, [self.currentAnchor]⟩
        quota := QuotaRegistry.new } :=
  Ledger.restore_of_holds lawful ((Store.holds_open lawful).commitCheckpoint lawful self.height
    self.supply (List.nil_prefix (l := self.tree.leaves)) (Finset.empty_subset self.nullifiers)) ..

end Restoring

/-! ## Two runs -/

/-- A transaction that a checkpoint over the given height can treat differently
because of what the snapshot of a ledger drops: it refers to an older anchor that
is still in the window, or uses a quota slot of the current epoch again. -/
def DependsOnDropped (origin : Ledger) (height : ℕ) (tx : TxV1) : Prop :=
  (tx.anchor ∈ origin.tree.anchors ∧ tx.anchor ≠ origin.currentAnchor ∧
    height - tx.anchor.height < anchorWindow) ∨
  ∃ rp, tx.antispam = .quota rp ∧ rp.epoch = (height + 1) / epochLength ∧
    origin.quota.seen (rp.epoch, rp.rateNullifier) ≠ none

/-- Two registries agree on the slots that a ledger has not seen. -/
def QuotaAgree (origin : Ledger) (left right : QuotaRegistry) : Prop :=
  ∀ slot, origin.quota.seen slot = none → left.seen slot = right.seen slot

/-- A ledger and one resumed from a snapshot of `origin` differ in what the
snapshot drops. -/
structure Resumed (origin left right : Ledger) : Prop where
  leaves : left.tree.leaves = right.tree.leaves
  nullifiers : left.nullifiers = right.nullifiers
  height : left.height = right.height
  supply : left.supply = right.supply
  emission : left.emission = right.emission
  validators : left.validators = right.validators
  difficultyBits : left.difficultyBits = right.difficultyBits
  leftSealed : WellSealed left
  rightSealed : WellSealed right
  anchors : ∃ older, left.tree.anchors = older ++ right.tree.anchors ∧
    ∀ anchor ∈ older, anchor ∈ origin.tree.anchors ∧ anchor ≠ origin.currentAnchor
  quota : QuotaAgree origin left.quota right.quota

namespace Resumed

variable {origin left right : Ledger}

theorem anchor_iff (resumed : Resumed origin left right) {tx : TxV1}
    (independent : ¬DependsOnDropped origin left.height tx) :
    tx.anchor ∈ left.tree.anchors ↔ tx.anchor ∈ right.tree.anchors := by
  obtain ⟨older, anchors, dropped⟩ := resumed.anchors
  constructor
  · intro member
    have recent := resumed.leftSealed.recent _ member
    rw [anchors] at member
    rcases List.mem_append.mp member with old | kept
    · exact absurd (.inl ⟨(dropped _ old).1, (dropped _ old).2, recent⟩) independent
    · exact kept
  · intro member
    rw [anchors]
    exact List.mem_append_right _ member

omit [Blake3] in
theorem laneOpen_eq (height : left.height = right.height) {registry registry' : QuotaRegistry}
    (agree : QuotaAgree origin registry registry') {antispam : AntiSpam}
    (independent : ∀ rp, antispam = .quota rp → rp.epoch = (left.height + 1) / epochLength →
      origin.quota.seen (rp.epoch, rp.rateNullifier) = none) :
    left.laneOpen registry antispam = right.laneOpen registry' antispam := by
  cases antispam with
  | pow solution => rfl
  | quota rp =>
      by_cases epoch : rp.epoch = (left.height + 1) / epochLength
      · rw [Ledger.laneOpen, Ledger.laneOpen, agree _ (independent rp rfl epoch), height]
      · have closed : (rp.epoch == (left.height + 1) / epochLength) = false := by simpa using epoch
        rw [Ledger.laneOpen, Ledger.laneOpen, ← height, closed]
        rfl

theorem verdict_eq (resumed : Resumed origin left right) (verifier : SpendVerifier)
    (seen : Finset Nullifier) {registry registry' : QuotaRegistry}
    (agree : QuotaAgree origin registry registry') {tx : TxV1}
    (independent : ¬DependsOnDropped origin left.height tx) :
    left.verdict verifier seen registry tx = right.verdict verifier seen registry' tx := by
  have anchors := resumed.anchor_iff independent
  have conflicts : left.Conflicts seen tx ↔ right.Conflicts seen tx := by
    rw [Ledger.Conflicts, Ledger.Conflicts, resumed.nullifiers]
  have lane : left.laneOpen registry tx.antispam = right.laneOpen registry' tx.antispam := by
    apply laneOpen_eq resumed.height agree
    intro rp used epoch
    by_contra seenBefore
    exact independent (.inr ⟨rp, used, epoch, seenBefore⟩)
  simp only [Ledger.verdict, anchors, conflicts, lane, resumed.difficultyBits]

omit [Blake3] in
theorem register_agree {registry registry' : QuotaRegistry}
    (agree : QuotaAgree origin registry registry') (antispam : AntiSpam) :
    QuotaAgree origin (registry.register antispam) (registry'.register antispam) := by
  intro slot unseen
  cases antispam with
  | pow solution => exact agree slot unseen
  | quota rp =>
      simp only [QuotaRegistry.register, QuotaRegistry.seen_admitProof, agree slot unseen]

/-- One transaction is settled alike, so the staged states stay equal up to the
registry. -/
theorem stageStep (resumed : Resumed origin left right) (verifier : SpendVerifier)
    (position position' : ℕ × Staged) (tx : TxV1)
    (staged : position.1 = position'.1 ∧ position.2.SameUpTo (QuotaAgree origin) position'.2)
    (independent : ¬DependsOnDropped origin left.height tx) :
    (left.stageStep verifier position tx).2 = (right.stageStep verifier position' tx).2 ∧
      (left.stageStep verifier position tx).1.1 = (right.stageStep verifier position' tx).1.1 ∧
      (left.stageStep verifier position tx).1.2.SameUpTo (QuotaAgree origin)
        (right.stageStep verifier position' tx).1.2 := by
  obtain ⟨index, same⟩ := staged
  have verdict : left.verdict verifier position.2.seenThisCheckpoint position.2.quota tx =
      right.verdict verifier position'.2.seenThisCheckpoint position'.2.quota tx := by
    obtain ⟨registry, equal, agree⟩ := same
    rw [equal]
    exact resumed.verdict_eq verifier _ agree independent
  simp only [Ledger.stageStep, Ledger.stageTx_eq, verdict, index, true_and]
  exact Ledger.sameUpTo_settle same _ (fun _ => ⟨rfl, rfl⟩)
    fun _ _ _ agree => register_agree agree tx.antispam

theorem stageAll (resumed : Resumed origin left right) (verifier : SpendVerifier)
    {batch : List TxV1} (independent : ∀ tx ∈ batch, ¬DependsOnDropped origin left.height tx) :
    (left.stageAll verifier batch).SameUpTo (QuotaAgree origin)
      (right.stageAll verifier batch) := by
  have staged := (Machine.run_simulation (fun (position position' : ℕ × Staged) =>
      position.1 = position'.1 ∧ position.2.SameUpTo (QuotaAgree origin) position'.2)
    (resumed.stageStep verifier) (0, Staged.init left.quota) (0, Staged.init right.quota)
    ⟨rfl, left.quota, rfl, resumed.quota⟩
    (Machine.along_of_forall (fun tx member _ => independent tx member) _)).2.2
  simpa only [Ledger.stageAll, Ledger.stageFrom_eq_run] using staged

/-- One checkpoint of independent transactions gives equal summaries. -/
theorem applyCheckpoint (resumed : Resumed origin left right) (verifier : SpendVerifier)
    {batch : List TxV1} (independent : ∀ tx ∈ batch, ¬DependsOnDropped origin left.height tx) :
    (left.applyCheckpoint verifier batch).2 = (right.applyCheckpoint verifier batch).2 ∧
      Resumed origin (left.applyCheckpoint verifier batch).1
        (right.applyCheckpoint verifier batch).1 := by
  obtain ⟨registry, staged, agree⟩ := resumed.stageAll verifier independent
  have rewards : left.nextRewards = right.nextRewards := by
    rw [Ledger.nextRewards, Ledger.nextRewards, resumed.emission, resumed.height,
      resumed.validators]
  have notes : left.rewardNotes = right.rewardNotes := by
    rw [Ledger.rewardNotes, Ledger.rewardNotes, rewards, resumed.validators, resumed.height]
  have leaves : (left.applyCheckpoint verifier batch).1.tree.leaves =
      (right.applyCheckpoint verifier batch).1.tree.leaves := by
    rw [Ledger.applyCheckpoint_leaves, Ledger.applyCheckpoint_leaves, staged, resumed.leaves, notes]
  have supply : (left.applyCheckpoint verifier batch).1.supply =
      (right.applyCheckpoint verifier batch).1.supply := by
    rw [Ledger.applyCheckpoint_supply, Ledger.applyCheckpoint_supply, rewards, resumed.supply]
  have anchor : (left.applyCheckpoint verifier batch).1.currentAnchor =
      (right.applyCheckpoint verifier batch).1.currentAnchor := by
    simp only [Ledger.currentAnchor, Ledger.applyCheckpoint_height, resumed.height,
      CommitmentTree.root_eq_leavesRoot, leaves]
  constructor
  · rw [Ledger.summary_eq, Ledger.summary_eq, anchor, supply, staged, rewards, resumed.height,
      resumed.leaves]
  · exact {
      leaves
      nullifiers := by
        rw [Ledger.applyCheckpoint_nullifiers, Ledger.applyCheckpoint_nullifiers, staged,
          resumed.nullifiers]
      height := by simp [resumed.height]
      supply
      emission := by simp [resumed.emission]
      validators := by simp [resumed.validators]
      difficultyBits := by simp [resumed.difficultyBits]
      leftSealed := Ledger.wellSealed_applyCheckpoint resumed.leftSealed verifier batch
      rightSealed := Ledger.wellSealed_applyCheckpoint resumed.rightSealed verifier batch
      anchors := by
        obtain ⟨older, anchors, dropped⟩ := resumed.anchors
        rw [Ledger.applyCheckpoint_anchors_of_wellSealed resumed.leftSealed,
          Ledger.applyCheckpoint_anchors_of_wellSealed resumed.rightSealed, anchors, anchor,
          resumed.height, List.filter_append, List.append_assoc]
        exact ⟨_, rfl, fun old member => dropped old (List.mem_of_mem_filter member)⟩
      quota := by
        rw [Ledger.applyCheckpoint_quota, Ledger.applyCheckpoint_quota, staged]
        exact agree }

end Resumed

/-- The checkpoints of a run that no transaction makes depend on what the snapshot of
`origin` drops. -/
def Independent (origin : Ledger) (verifier : SpendVerifier) (batches : List (List TxV1)) : Prop :=
  Machine.Along (fun (ledger : Ledger) batch => ledger.applyCheckpoint verifier batch)
    (fun ledger batch => ∀ tx ∈ batch, ¬DependsOnDropped origin ledger.height tx) origin batches

/-- A reachable ledger restores from its snapshot with the same height, supply, leaves,
nullifiers and current anchor, the only anchor kept, and with an empty quota registry.
Both ledgers then give equal summaries as long as no transaction refers to an older anchor
still in the window or uses a quota slot again. -/
theorem restored_run_agrees [Redb] (lawful : OrderedTables.Lawful) {emission : EmissionParams}
    {validators : List ValidatorInfo} {difficultyBits : ℕ}
    {genesisNotes : List (Commitment × UInt64)} {verifier : SpendVerifier}
    {past : List (List TxV1)} {origin : Ledger}
    (reached : origin =
      ((Ledger.genesis emission validators difficultyBits genesisNotes).run verifier past).1)
    {verifier' : SpendVerifier} {batches : List (List TxV1)}
    (independent : Independent origin verifier' batches) :
    ∃ restored, Ledger.restore (origin.persist Store.open) origin.emission origin.validators
        origin.difficultyBits = .ok restored ∧
      restored.height = origin.height ∧ restored.supply = origin.supply ∧
      restored.tree.leaves = origin.tree.leaves ∧ restored.nullifiers = origin.nullifiers ∧
      restored.tree.anchors = [origin.currentAnchor] ∧ restored.quota = QuotaRegistry.new ∧
      (restored.run verifier' batches).2 = (origin.run verifier' batches).2 := by
  have wellSealed : WellSealed origin := by
    rw [reached]
    exact Ledger.wellSealed_run (Ledger.wellSealed_genesis ..) verifier past
  obtain ⟨older, anchors⟩ := wellSealed.current
  have dropped (anchor : Anchor) (member : anchor ∈ older) :
      anchor ∈ origin.tree.anchors ∧ anchor ≠ origin.currentAnchor := by
    rw [anchors]
    refine ⟨List.mem_append_left _ member, fun equal => ?_⟩
    have increasing := wellSealed.increasing
    rw [anchors] at increasing
    have below := (List.pairwise_append.mp increasing).2.2 anchor member _
      (List.mem_singleton_self _)
    rw [equal] at below
    exact lt_irrefl _ below
  refine ⟨_, origin.restore_persist lawful, rfl, rfl, rfl, rfl, rfl, rfl, ?_⟩
  have resumed : Resumed origin origin { origin with
      tree := ⟨origin.tree.leaves, [origin.currentAnchor]⟩
      quota := QuotaRegistry.new } :=
    { leaves := rfl
      nullifiers := rfl
      height := rfl
      supply := rfl
      emission := rfl
      validators := rfl
      difficultyBits := rfl
      leftSealed := wellSealed
      rightSealed := ⟨⟨[], rfl⟩, List.pairwise_singleton _ _, by
        simp [Ledger.currentAnchor, anchorWindow]⟩
      anchors := ⟨older, anchors, dropped⟩
      quota := fun _ unseen => unseen }
  exact (Machine.run_simulation _ (fun _ _ _ resumed independent =>
    resumed.applyCheckpoint verifier' independent) _ _ resumed independent).1.symm

end Resume

section Samples

open Reference

/-- A verifier that accepts every proof. -/
def lenientVerifier : SpendVerifier := ⟨fun _ _ => .ok ()⟩

/-- A transaction on the quota lane, in slot `slot` of epoch 0. -/
def quotaTx (anchor : Anchor) (low high slot : UInt8) : TxV1 :=
  let unsigned : TxV1 :=
    { sampleTx with
      anchor
      nullifiers := ⟨[⟨Bytes.filled 32 low⟩, ⟨Bytes.filled 32 high⟩], rfl⟩ }
  { unsigned with
    antispam := .quota ⟨0, Bytes.filled 32 slot, messageX unsigned.bindingDigest.toList, 0⟩ }

theorem anchor_quotaTx (anchor : Anchor) (low high slot : UInt8) :
    (quotaTx anchor low high slot).anchor = anchor := rfl

theorem slot_quotaTx {anchor : Anchor} {low high slot : UInt8} {rp : RateProof}
    (used : (quotaTx anchor low high slot).antispam = .quota rp) :
    (rp.epoch, rp.rateNullifier) = ((0, Bytes.filled 32 slot) : ℕ × Bytes32) := by
  obtain rfl := AntiSpam.quota.inj used
  rfl

/-- A ledger that has sealed two anchors and registered slot 7. -/
def slottedLedger : Ledger :=
  (sampleLedger.run lenientVerifier [[quotaTx sampleLedger.currentAnchor 1 2 7]]).1

/-- The restored ledger has lost an anchor and a slot.  A transaction under the current
anchor that uses another slot is accepted by both. -/
theorem restored_run_agrees_sample :
    let batches := [[quotaTx slottedLedger.currentAnchor 3 4 8]]
    slottedLedger.tree.anchors = [sampleLedger.currentAnchor, slottedLedger.currentAnchor] ∧
      slottedLedger.quota.seen (0, Bytes.filled 32 7) ≠ none ∧
      (slottedLedger.run lenientVerifier batches).2.map CheckpointSummary.accepted = [1] ∧
      ∃ restored, Ledger.restore (slottedLedger.persist Store.open) sampleEmission
          sampleValidators 0 = .ok restored ∧
        restored.tree.anchors = [slottedLedger.currentAnchor] ∧
        restored.quota = QuotaRegistry.new ∧
        (restored.run lenientVerifier batches).2 =
          (slottedLedger.run lenientVerifier batches).2 := by
  intro batches
  have fresh : slottedLedger.quota.seen (0, Bytes.filled 32 8) = none := by decide +kernel
  have independent : Independent slottedLedger lenientVerifier batches := by
    simp only [Independent, Machine.Along, batches, and_true, List.mem_singleton, forall_eq]
    rintro (⟨-, older, -⟩ | ⟨rp, used, -, seen⟩)
    · exact older (anchor_quotaTx ..)
    · rw [slot_quotaTx used] at seen
      exact seen fresh
  have reached : slottedLedger = ((Ledger.genesis sampleEmission sampleValidators 0
      ([sampleNote].map fun note => (note.commitment, note.value))).run lenientVerifier
        [[quotaTx sampleLedger.currentAnchor 1 2 7]]).1 := rfl
  obtain ⟨restored, read, -, -, -, -, anchors, quota, agree⟩ :=
    restored_run_agrees redb_lawful reached independent
  have parameters : slottedLedger.emission = sampleEmission ∧
      slottedLedger.validators = sampleValidators ∧ slottedLedger.difficultyBits = 0 := by
    simp [slottedLedger, sampleLedger, Ledger.run, Ledger.genesis_eq]
  rw [parameters.1, parameters.2.1, parameters.2.2] at read
  exact ⟨by decide +kernel, by decide +kernel, by decide +kernel, restored, read, anchors, quota,
    agree⟩

/-- After one more checkpoint the sample spend refers to an older anchor: the
running ledger accepts it, the restored one does not. -/
theorem restored_run_differs :
    ¬∀ (_ : Blake3) (_ : Redb), OrderedTables.Lawful →
      ∀ (emission : EmissionParams) (validators : List ValidatorInfo) (difficultyBits : ℕ)
        (genesisNotes : List (Commitment × UInt64)) (verifier : SpendVerifier)
        (past batches : List (List TxV1)) (origin restored : Ledger),
      origin =
        ((Ledger.genesis emission validators difficultyBits genesisNotes).run verifier past).1 →
      Ledger.restore (origin.persist Store.open) origin.emission origin.validators
        origin.difficultyBits = .ok restored →
      (restored.run verifier batches).2 = (origin.run verifier batches).2 := by
  intro claim
  have agree := claim Reference.blake3 Reference.redb redb_lawful sampleEmission sampleValidators 0
    ([sampleNote].map fun note => (note.commitment, note.value)) sampleVerifier [[]] [[sampleTx]]
    _ _ rfl (Ledger.restore_persist redb_lawful _)
  have counts := congrArg (List.map CheckpointSummary.accepted) agree
  exact absurd counts (by decide +kernel)

/-- A slot used before the snapshot is refused by the running ledger and admitted
by the restored one, even under the current anchor. -/
theorem restored_run_forgets_slots :
    ∃ (origin restored : Ledger) (tx : TxV1),
      origin = slottedLedger ∧
      Ledger.restore (origin.persist Store.open) origin.emission origin.validators
        origin.difficultyBits = .ok restored ∧
      tx.anchor = origin.currentAnchor ∧
      (origin.applyCheckpoint lenientVerifier [tx]).2.accepted = 0 ∧
      (restored.applyCheckpoint lenientVerifier [tx]).2.accepted = 1 :=
  ⟨_, _, quotaTx slottedLedger.currentAnchor 3 4 7, rfl, Ledger.restore_persist redb_lawful _, rfl,
    by decide +kernel, by decide +kernel⟩

end Samples

end ShieldedLedger
