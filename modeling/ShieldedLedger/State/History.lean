import ShieldedLedger.State.Checkpoint
import ShieldedLedger.General.Blocks

/-!
# The ledger refines its history

The abstract history of a run is a list of blocks: the transactions a checkpoint
accepted and the notes it minted.  Nullifiers and leaves of the ledger are read
off that list, and the summaries describe it.
-/

namespace ShieldedLedger

/-- What one checkpoint adds to the history. -/
structure Block where
  accepted : List TxV1
  minted : List Note

/-- Accepted transactions of a history, in commit order. -/
def acceptedIn (blocks : List Block) : List TxV1 := blocks.flatMap Block.accepted

@[simp] theorem acceptedIn_append (left right : List Block) :
    acceptedIn (left ++ right) = acceptedIn left ++ acceptedIn right :=
  List.flatMap_append

/-- The positions of a middle part look that part up. -/
theorem map_range'_getElem? {α : Type} (left middle right : List α) :
    (List.range' left.length middle.length).map (fun position =>
      (left ++ (middle ++ right))[position]?) = middle.map some := by
  apply List.ext_getElem?
  intro i
  rcases lt_or_ge i middle.length with inside | outside
  · simp [inside, List.getElem?_append_right, List.getElem?_append_left]
  · simp [outside]

/-- Commitments are listed transaction by transaction. -/
theorem getElem?_commitmentsOf {txs : List TxV1} {tx : TxV1} (j : Fin txOutputs) {i : ℕ}
    (found : txs[i]? = some tx) :
    (commitmentsOf txs)[txOutputs * i + j]? = some (tx.commitments.get j) :=
  Blocks.getElem?_flatMap TxV1.commitments j found

variable [Blake3]

/-- Leaves a block appends: commitments in commit order, then reward notes. -/
def Block.leaves (block : Block) : List Bytes32 :=
  (commitmentsOf block.accepted).map Commitment.bytes ++
    block.minted.map fun note => note.commitment.bytes

/-- The block described by a batch and its summary. -/
def blockOf (validators : List ValidatorInfo) (entry : List TxV1 × CheckpointSummary) : Block where
  accepted := acceptedTxs entry.1 entry.2.rejected
  minted := entry.2.rewards.shares.map (rewardNote validators entry.2.height)

/-- The blocks of a run. -/
def blocksOf (validators : List ValidatorInfo) (entries : List (List TxV1 × CheckpointSummary)) :
    List Block :=
  entries.map (blockOf validators)

/-- All leaves after a history that started from some leaves. -/
def leavesAfter (start : List Bytes32) (blocks : List Block) : List Bytes32 :=
  start ++ blocks.flatMap Block.leaves

/-- The summary of one checkpoint describes its batch, given the leaves and the
height before it. -/
structure Recorded (validators : List ValidatorInfo) (before : List Bytes32) (height : ℕ)
    (batch : List TxV1) (summary : CheckpointSummary) : Prop where
  height : summary.height = height + 1
  accepted : summary.accepted = (acceptedTxs batch summary.rejected).length
  total : summary.accepted + summary.rejected.length = batch.length
  increasing : (summary.rejected.map Prod.fst).Pairwise (· < ·)
  inRange : ∀ entry ∈ summary.rejected, entry.1 < batch.length
  outputPositions : summary.outputPositions =
    List.range' before.length (commitmentsOf (acceptedTxs batch summary.rejected)).length
  shares : summary.rewards.shares = [] ∨
    summary.rewards.shares.map RewardShare.validatorIndex =
      (List.range validators.length).map UInt32.ofNat

/-- A ledger is exactly what the history of its run says. -/
structure Follows (validators : List ValidatorInfo) (start : List Bytes32)
    (entries : List (List TxV1 × CheckpointSummary)) (ledger : Ledger) : Prop where
  validators_eq : ledger.validators = validators
  nullifiers : ledger.nullifiers =
    (nullifiersOf (acceptedIn (blocksOf validators entries))).toFinset
  nodup : (nullifiersOf (acceptedIn (blocksOf validators entries))).Nodup
  leaves : ledger.tree.leaves = leavesAfter start (blocksOf validators entries)
  height : ledger.height = entries.length
  recorded : ∀ k batch summary, entries[k]? = some (batch, summary) →
    Recorded validators (leavesAfter start (blocksOf validators (entries.take k))) k batch summary

namespace Ledger

/-- The accepted transactions of a checkpoint, read off its summary. -/
theorem acceptedTxs_applyCheckpoint (self : Ledger) (verifier : SpendVerifier)
    (batch : List TxV1) :
    acceptedTxs batch (self.applyCheckpoint verifier batch).2.rejected =
      acceptedOf (self.verdicts verifier batch) := by
  have tracks := self.tracks_stageAll verifier batch
  calc acceptedTxs batch (self.applyCheckpoint verifier batch).2.rejected
      = acceptedTxs ((self.verdicts verifier batch).map Prod.fst)
          (rejectedOf (self.verdicts verifier batch)) := by
        rw [map_fst_verdicts, applyCheckpoint_summary_rejected, tracks.rejected]
    _ = acceptedOf (self.verdicts verifier batch) := acceptedTxs_rejectedOf _

/-- Every summary describes its own checkpoint. -/
theorem recorded_applyCheckpoint (self : Ledger) (verifier : SpendVerifier)
    (batch : List TxV1) :
    Recorded self.validators self.tree.leaves self.height batch
      (self.applyCheckpoint verifier batch).2 := by
  have tracks := self.tracks_stageAll verifier batch
  have lengthEq := self.length_verdicts verifier batch
  exact {
    height := rfl
    accepted := by
      rw [acceptedTxs_applyCheckpoint, applyCheckpoint_summary_accepted, tracks.accepted]
    total := by
      rw [applyCheckpoint_summary_accepted, applyCheckpoint_summary_rejected, tracks.accepted,
        tracks.rejected, length_acceptedOf_add, lengthEq]
    increasing := by
      rw [applyCheckpoint_summary_rejected, tracks.rejected]
      exact pairwise_rejectedOf _
    inRange := by
      rw [applyCheckpoint_summary_rejected, tracks.rejected]
      rintro ⟨i, reason⟩ member
      obtain ⟨tx, found⟩ := mem_rejectedOf.mp member
      exact lengthEq ▸ (List.getElem?_eq_some_iff.mp found).1
    outputPositions := by
      rw [acceptedTxs_applyCheckpoint, applyCheckpoint_summary_outputPositions,
        tracks.commitments]
    shares := by
      have shares := map_validatorIndex_distribute
        (self.emission.emissionAt (self.height + 1)) (self.validators.map ValidatorInfo.weight)
      rwa [List.length_map] at shares }

/-- The block of a checkpoint is what it staged and minted. -/
theorem blockOf_applyCheckpoint (self : Ledger) (verifier : SpendVerifier) (batch : List TxV1) :
    blockOf self.validators (batch, (self.applyCheckpoint verifier batch).2) =
      ⟨acceptedOf (self.verdicts verifier batch), self.rewardNotes⟩ := by
  rw [blockOf, acceptedTxs_applyCheckpoint]
  rfl

theorem follows_applyCheckpoint {validators : List ValidatorInfo} {start : List Bytes32}
    (verifier : SpendVerifier) (past : List (List TxV1 × CheckpointSummary)) (self : Ledger)
    (batch : List TxV1) (follows : Follows validators start past self) :
    Follows validators start (past ++ [(batch, (self.applyCheckpoint verifier batch).2)])
      (self.applyCheckpoint verifier batch).1 := by
  obtain ⟨rfl, nullifiers, nodup, leaves, height, recorded⟩ := follows
  have tracks := self.tracks_stageAll verifier batch
  have blocks : blocksOf self.validators
      (past ++ [(batch, (self.applyCheckpoint verifier batch).2)]) =
      blocksOf self.validators past ++
        [⟨acceptedOf (self.verdicts verifier batch), self.rewardNotes⟩] := by
    rw [blocksOf, List.map_append, List.map_singleton, blockOf_applyCheckpoint, blocksOf]
  have last (minted : List Note) :
      acceptedIn [⟨acceptedOf (self.verdicts verifier batch), minted⟩] =
      acceptedOf (self.verdicts verifier batch) := by
    simp [acceptedIn]
  exact {
    validators_eq := by simp
    nullifiers := by
      rw [applyCheckpoint_nullifiers, tracks.nullifiers, blocks, acceptedIn_append, last,
        nullifiersOf_append, List.toFinset_append, nullifiers]
    nodup := by
      rw [blocks, acceptedIn_append, last, nullifiersOf_append, List.nodup_append]
      refine ⟨nodup, tracks.nodup, ?_⟩
      rintro nf earlier other added rfl
      refine tracks.fresh nf added ?_
      rw [nullifiers]
      exact List.mem_toFinset.mpr earlier
    leaves := by
      rw [applyCheckpoint_leaves, tracks.commitments, blocks, leaves]
      simp [leavesAfter, Block.leaves]
    height := by simp [height]
    recorded := by
      intro k batch' summary' found
      rcases lt_or_ge k past.length with earlier | last
      · rw [List.getElem?_append_left earlier] at found
        rw [List.take_append_of_le_length earlier.le]
        exact recorded k batch' summary' found
      · obtain rfl : k = past.length := by
          have := (List.getElem?_eq_some_iff.mp found).1
          simp only [List.length_append, List.length_singleton] at this
          omega
        obtain ⟨rfl, rfl⟩ : batch = batch' ∧
            (self.applyCheckpoint verifier batch).2 = summary' := by
          simpa using found
        rw [List.take_left, ← leaves, ← height]
        exact self.recorded_applyCheckpoint verifier batch }

theorem follows_genesis (emission : EmissionParams) (validators : List ValidatorInfo)
    (difficultyBits : ℕ) (genesisNotes : List (Commitment × UInt64)) :
    Follows validators (genesisNotes.map fun entry => entry.1.bytes) []
      (genesis emission validators difficultyBits genesisNotes) := by
  rw [genesis_eq]
  exact ⟨rfl, rfl, List.nodup_nil, by simp [leavesAfter, blocksOf], rfl, by simp⟩

theorem follows_run {validators : List ValidatorInfo} {start : List Bytes32} {self : Ledger}
    (follows : Follows validators start [] self) (verifier : SpendVerifier)
    (batches : List (List TxV1)) :
    Follows validators start (batches.zip (self.run verifier batches).2)
      (self.run verifier batches).1 := by
  have history := Machine.run_history
    (fun (ledger : Ledger) ordered => ledger.applyCheckpoint verifier ordered)
    (Follows validators start) (follows_applyCheckpoint verifier) follows batches
  rwa [List.nil_append] at history

end Ledger

/-- Output positions look up the accepted commitments in the final tree. -/
theorem Follows.lookup {validators : List ValidatorInfo} {start : List Bytes32}
    {entries : List (List TxV1 × CheckpointSummary)} {ledger : Ledger}
    (follows : Follows validators start entries ledger) {k : ℕ} {batch : List TxV1}
    {summary : CheckpointSummary} (found : entries[k]? = some (batch, summary)) :
    summary.outputPositions.map (fun position => ledger.tree.leaves[position]?) =
      (commitmentsOf (acceptedTxs batch summary.rejected)).map fun cm => some cm.bytes := by
  have split : entries = entries.take k ++ (batch, summary) :: entries.drop (k + 1) := by
    obtain ⟨inside, equal⟩ := List.getElem?_eq_some_iff.mp found
    rw [← equal, List.cons_getElem_drop_succ, List.take_append_drop]
  set accepted := (commitmentsOf (acceptedTxs batch summary.rejected)).map Commitment.bytes
    with acceptedEq
  obtain ⟨rest, leaves⟩ : ∃ rest, ledger.tree.leaves =
      leavesAfter start (blocksOf validators (entries.take k)) ++ (accepted ++ rest) := by
    refine ⟨(blockOf validators (batch, summary)).minted.map (fun note => note.commitment.bytes) ++
      (blocksOf validators (entries.drop (k + 1))).flatMap Block.leaves, ?_⟩
    rw [follows.leaves, acceptedEq]
    conv_lhs => rw [split]
    simp [leavesAfter, blocksOf, Block.leaves, blockOf]
  have positions := map_range'_getElem?
    (leavesAfter start (blocksOf validators (entries.take k))) accepted rest
  rw [acceptedEq, List.length_map, ← acceptedEq] at positions
  rw [(follows.recorded k batch summary found).outputPositions, leaves, positions, acceptedEq,
    List.map_map]
  rfl

/-- Checkpoint refinement: after any run from genesis the ledger is its history.
Nullifiers are those of the accepted transactions, none twice; leaves follow
commit order; the summaries list the positions, counts and rejected indices. -/
theorem run_refines_history (emission : EmissionParams) (validators : List ValidatorInfo)
    (difficultyBits : ℕ) (genesisNotes : List (Commitment × UInt64)) (verifier : SpendVerifier)
    (batches : List (List TxV1)) :
    let outcome := (Ledger.genesis emission validators difficultyBits genesisNotes).run verifier
      batches
    let entries := batches.zip outcome.2
    let accepted := acceptedIn (blocksOf validators entries)
    outcome.2.length = batches.length ∧
    Follows validators (genesisNotes.map fun entry => entry.1.bytes) entries outcome.1 ∧
    outcome.1.nullifiers.card = txInputs * accepted.length ∧
    outcome.1.height = batches.length ∧
    ∀ (k : ℕ) (batch : List TxV1) (summary : CheckpointSummary),
      entries[k]? = some (batch, summary) →
      summary.outputPositions.map (fun position => outcome.1.tree.leaves[position]?) =
        (commitmentsOf (acceptedTxs batch summary.rejected)).map fun cm => some cm.bytes := by
  intro outcome entries accepted
  have lengthEq : outcome.2.length = batches.length := Machine.length_outputs _ _
  have follows := Ledger.follows_run
    (Ledger.follows_genesis emission validators difficultyBits genesisNotes) verifier batches
  refine ⟨lengthEq, follows, ?_, ?_, fun k batch summary found => follows.lookup found⟩
  · rw [follows.nullifiers, List.toFinset_card_of_nodup follows.nodup, length_nullifiersOf]
  · rw [follows.height, List.length_zip, lengthEq, min_self]

end ShieldedLedger
