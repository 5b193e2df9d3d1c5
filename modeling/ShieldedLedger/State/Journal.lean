import ShieldedLedger.State.Durability
import ShieldedLedger.State.History
import ShieldedLedger.Storage.Journal

/-!
# Journalling checkpoints

A snapshot writes the whole permanent state.  A commit may also write what one
checkpoint added, which is what the store documents it for.  A process that
writes through after every checkpoint, one way or the other, always restarts with
the leaves, nullifiers, height and supply it had.  Only the heights in the nullifier
table tell the two apart: a delta dates the nullifiers that its checkpoint accepted,
a snapshot dates all of them anew.
-/

namespace ShieldedLedger

/-- What a checkpoint writes: what it added, or everything. -/
inductive Write where
  | delta
  | snapshot
  deriving DecidableEq

/-- The last checkpoint to write a nullifier that checkpoint `k` accepted is the last
snapshot after it, or checkpoint `k` itself. -/
structure LastWrite (writes : List Write) (k last : ℕ) : Prop where
  reached : k ≤ last
  wrote : last = k ∨ writes[last]? = some .snapshot
  final : ∀ later, last < later → writes[later]? ≠ some .snapshot

namespace LastWrite

variable {writes : List Write} {k last : ℕ}

/-- A delta writes none of the earlier nullifiers. -/
theorem delta (lastWrite : LastWrite writes k last) :
    LastWrite (writes ++ [.delta]) k last where
  reached := lastWrite.reached
  wrote := lastWrite.wrote.imp_right fun found =>
    (List.getElem?_append_left (List.getElem?_eq_some_iff.mp found).1).trans found
  final := by
    intro later past found
    rcases lt_or_ge later writes.length with inside | outside
    · rw [List.getElem?_append_left inside] at found
      exact lastWrite.final later past found
    · rw [List.getElem?_append_right outside, List.getElem?_singleton] at found
      split at found <;> cases found

/-- The newest checkpoint is the last one to write, if it accepted the nullifier or
wrote a snapshot. -/
theorem newest {write : Write} (reached : k ≤ writes.length)
    (wrote : writes.length = k ∨ write = .snapshot) :
    LastWrite (writes ++ [write]) k writes.length where
  reached := reached
  wrote := by
    rcases wrote with same | rfl
    · exact .inl same
    · exact .inr (by simp)
  final := by
    intro later past found
    have outside : (writes ++ [write]).length ≤ later := by
      rw [List.length_append, List.length_singleton]
      exact past
    rw [List.getElem?_eq_none_iff.mpr outside] at found
    cases found

end LastWrite

section Journal

variable [Blake3]

omit [Blake3] in
/-- What a checkpoint adds to the permanent state: 128 bytes for each accepted transaction
and 32 for each reward note. -/
def CheckpointSummary.permanentBytes (summary : CheckpointSummary) : ℕ :=
  128 * summary.accepted + 32 * summary.rewards.shares.length

namespace Ledger

omit [Blake3] in
/-- Commit what the last checkpoint added: the leaves past those held before, and the
nullifiers it spent. -/
def commitDelta [Redb] (self : Ledger) (held : ℕ) (spent : List Nullifier) (store : Store) :
    Store :=
  let fresh := (self.tree.leaves.drop held).mapIdx fun i leaf => (held + i, Commitment.mk leaf)
  store.commitCheckpoint self.height self.supply fresh spent

variable (self : Ledger) (verifier : SpendVerifier) (batch : List TxV1)

theorem leaves_prefix_applyCheckpoint :
    self.tree.leaves <+: (self.applyCheckpoint verifier batch).1.tree.leaves := by
  rw [applyCheckpoint_leaves]
  exact List.prefix_append ..

theorem nullifiers_subset_applyCheckpoint :
    self.nullifiers ⊆ (self.applyCheckpoint verifier batch).1.nullifiers := by
  rw [applyCheckpoint_nullifiers]
  exact Finset.subset_union_left

/-- A checkpoint spends the nullifiers of the transactions that it accepts. -/
theorem nullifiers_applyCheckpoint_union :
    (self.applyCheckpoint verifier batch).1.nullifiers = self.nullifiers ∪
      (nullifiersOf
        (acceptedTxs batch (self.applyCheckpoint verifier batch).2.rejected)).toFinset := by
  rw [applyCheckpoint_nullifiers, (self.tracks_stageAll verifier batch).nullifiers,
    acceptedTxs_applyCheckpoint]

/-- The nullifiers that a checkpoint accepts are new. -/
theorem accepted_nullifier_new {nf : Nullifier}
    (accepted : nf ∈ nullifiersOf
      (acceptedTxs batch (self.applyCheckpoint verifier batch).2.rejected)) :
    nf ∉ self.nullifiers := by
  rw [acceptedTxs_applyCheckpoint] at accepted
  exact (self.tracks_stageAll verifier batch).fresh nf accepted

/-- A checkpoint appends the outputs of the accepted transactions and one note for each
reward share. -/
theorem length_leaves_applyCheckpoint :
    (self.applyCheckpoint verifier batch).1.tree.leaves.length = self.tree.leaves.length +
      (txOutputs * (self.applyCheckpoint verifier batch).2.accepted +
        (self.applyCheckpoint verifier batch).2.rewards.shares.length) := by
  have tracks := self.tracks_stageAll verifier batch
  have outputs (txs : List TxV1) : (commitmentsOf txs).length = txOutputs * txs.length := by
    simp [commitmentsOf, List.length_flatMap, Nat.mul_comm]
  rw [applyCheckpoint_leaves, applyCheckpoint_summary_accepted, applyCheckpoint_summary_rewards,
    tracks.commitments, tracks.accepted, List.length_append, List.length_append, List.length_map,
    List.length_map, outputs, rewardNotes, List.length_map]

/-- A checkpoint spends the inputs of the accepted transactions, each for the first time. -/
theorem card_nullifiers_applyCheckpoint :
    (self.applyCheckpoint verifier batch).1.nullifiers.card = self.nullifiers.card +
      txInputs * (self.applyCheckpoint verifier batch).2.accepted := by
  have tracks := self.tracks_stageAll verifier batch
  have fresh : Disjoint self.nullifiers
      (nullifiersOf (acceptedOf (self.verdicts verifier batch))).toFinset := by
    rw [Finset.disjoint_right]
    exact fun nf added => tracks.fresh nf (List.mem_toFinset.mp added)
  rw [applyCheckpoint_nullifiers, applyCheckpoint_summary_accepted, tracks.nullifiers,
    tracks.accepted, Finset.card_union_of_disjoint fresh,
    List.toFinset_card_of_nodup tracks.nodup, length_nullifiersOf]

/-- A run adds to the permanent state what its summaries say. -/
theorem permanent_run (batches : List (List TxV1)) :
    32 * (self.run verifier batches).1.tree.leaves.length +
        32 * (self.run verifier batches).1.nullifiers.card =
      32 * self.tree.leaves.length + 32 * self.nullifiers.card +
        ((self.run verifier batches).2.map CheckpointSummary.permanentBytes).sum := by
  induction batches generalizing self with
  | nil => rfl
  | cons batch rest ih =>
      have leaves := self.length_leaves_applyCheckpoint verifier batch
      have nullifiers := self.card_nullifiers_applyCheckpoint verifier batch
      have later := ih (self.applyCheckpoint verifier batch).1
      rw [leaves, nullifiers] at later
      rw [run] at later ⊢
      have shape : txInputs = 2 ∧ txOutputs = 2 := ⟨rfl, rfl⟩
      rw [shape.1, shape.2] at later
      rw [Machine.run_cons, List.map_cons, List.sum_cons, later, CheckpointSummary.permanentBytes]
      omega

end Ledger

variable [Redb]

namespace Process

/-- Apply a checkpoint and write it through. -/
def writeThrough (verifier : SpendVerifier) (self : Process) (entry : List TxV1 × Write) :
    Process × CheckpointSummary :=
  let (next, summary) := self.ledger.applyCheckpoint verifier entry.1
  let spent := nullifiersOf (acceptedTxs entry.1 summary.rejected)
  let store := match entry.2 with
    | .delta => next.commitDelta self.ledger.tree.len spent self.store
    | .snapshot => next.persist self.store
  (⟨next, store⟩, summary)

/-- The store holds the ledger, and dates each nullifier by the last checkpoint that
wrote it. -/
structure Journalled (past : List ((List TxV1 × Write) × CheckpointSummary)) (process : Process) :
    Prop where
  holds : process.store.Holds process.ledger.tree.leaves process.ledger.nullifiers
  height : process.store.height = some process.ledger.height
  supply : process.store.supply = some process.ledger.supply
  length : process.ledger.height = past.length
  dated : ∀ k batch write summary, past[k]? = some ((batch, write), summary) →
    ∀ nf ∈ nullifiersOf (acceptedTxs batch summary.rejected),
      nf ∈ process.ledger.nullifiers ∧ ∃ last, LastWrite (past.map fun entry => entry.1.2) k last ∧
        process.store.nullifierHeight nf = some (last + 1)

/-- Writing through runs the plain ledger. -/
theorem run_writeThrough (verifier : SpendVerifier) (process : Process)
    (entries : List (List TxV1 × Write)) :
    process.ledger.run verifier (entries.map Prod.fst) =
      ((Machine.run (writeThrough verifier) process entries).1.ledger,
        (Machine.run (writeThrough verifier) process entries).2) :=
  Machine.run_project (writeThrough verifier)
    (fun (ledger : Ledger) ordered => ledger.applyCheckpoint verifier ordered)
    Process.ledger Prod.fst (fun _ _ => rfl) process entries

variable (lawful : OrderedTables.Lawful)
  {past : List ((List TxV1 × Write) × CheckpointSummary)} {process : Process}
include lawful

/-- Both ways of writing leave the store with the contents of the new ledger. -/
theorem Journalled.holds_writeThrough (journalled : Journalled past process)
    (verifier : SpendVerifier) (batch : List TxV1) (write : Write) :
    (process.writeThrough verifier (batch, write)).1.store.Holds
      (process.ledger.applyCheckpoint verifier batch).1.tree.leaves
      (process.ledger.applyCheckpoint verifier batch).1.nullifiers := by
  have grown := process.ledger.nullifiers_subset_applyCheckpoint verifier batch
  have extension := process.ledger.leaves_prefix_applyCheckpoint verifier batch
  cases write with
  | snapshot =>
      exact journalled.holds.commitCheckpoint lawful _ _ extension grown
  | delta =>
      have added := journalled.holds.commitNew lawful
        (process.ledger.applyCheckpoint verifier batch).1.height
        (process.ledger.applyCheckpoint verifier batch).1.supply
        ((process.ledger.applyCheckpoint verifier batch).1.tree.leaves.drop
          process.ledger.tree.leaves.length)
        (nullifiersOf (acceptedTxs batch
          (process.ledger.applyCheckpoint verifier batch).2.rejected))
      rwa [List.prefix_iff_eq_append.mp extension,
        ← Ledger.nullifiers_applyCheckpoint_union] at added

/-- A delta leaves the date of a nullifier held before. -/
theorem nullifierHeight_delta (verifier : SpendVerifier) (batch : List TxV1) {nf : Nullifier}
    (old : nf ∈ process.ledger.nullifiers) :
    (process.writeThrough verifier (batch, .delta)).1.store.nullifierHeight nf =
      process.store.nullifierHeight nf :=
  Store.nullifierHeight_commit_of_notMem lawful _ _ _ _ fun accepted =>
    process.ledger.accepted_nullifier_new verifier batch accepted old

/-- A write dates what it names: a delta the nullifiers accepted just now, a snapshot
every nullifier. -/
theorem nullifierHeight_written (verifier : SpendVerifier) (batch : List TxV1) (write : Write)
    {nf : Nullifier}
    (member : nf ∈ (process.ledger.applyCheckpoint verifier batch).1.nullifiers)
    (named : write = .snapshot ∨ nf ∈ nullifiersOf
      (acceptedTxs batch (process.ledger.applyCheckpoint verifier batch).2.rejected)) :
    (process.writeThrough verifier (batch, write)).1.store.nullifierHeight nf =
      some (process.ledger.height + 1) := by
  cases write with
  | snapshot =>
      exact Store.nullifierHeight_commit_of_mem lawful _ _ _ _ ((Finset.mem_sort _).mpr member)
  | delta =>
      exact Store.nullifierHeight_commit_of_mem lawful _ _ _ _ (named.resolve_left (by simp))

theorem journalled_writeThrough (verifier : SpendVerifier)
    (past : List ((List TxV1 × Write) × CheckpointSummary)) (process : Process)
    (entry : List TxV1 × Write) (journalled : Journalled past process) :
    Journalled (past ++ [(entry, (process.writeThrough verifier entry).2)])
      (process.writeThrough verifier entry).1 := by
  obtain ⟨batch, write⟩ := entry
  have writes : (past ++ [((batch, write), (process.writeThrough verifier (batch, write)).2)]).map
      (fun entry => entry.1.2) = past.map (fun entry => entry.1.2) ++ [write] := by
    simp
  have count : (past.map fun entry => entry.1.2).length = process.ledger.height := by
    rw [List.length_map, journalled.length]
  refine ⟨journalled.holds_writeThrough lawful verifier batch write, ?_, ?_, ?_, ?_⟩
  · cases write <;> rfl
  · cases write <;> rfl
  · rw [List.length_append, List.length_singleton, ← journalled.length]
    rfl
  · intro k batch' write' summary' found nf accepted
    rw [writes]
    rcases lt_or_ge k past.length with earlier | last
    · rw [List.getElem?_append_left earlier] at found
      obtain ⟨old, last, lastWrite, date⟩ :=
        journalled.dated k batch' write' summary' found nf accepted
      have member := process.ledger.nullifiers_subset_applyCheckpoint verifier batch old
      refine ⟨member, ?_⟩
      cases write with
      | delta =>
          exact ⟨last, lastWrite.delta,
            (nullifierHeight_delta lawful verifier batch old).trans date⟩
      | snapshot =>
          refine ⟨_, LastWrite.newest (by rw [List.length_map]; exact earlier.le) (.inr rfl), ?_⟩
          rw [nullifierHeight_written lawful verifier batch .snapshot member (.inl rfl), count]
    · obtain rfl : k = past.length := by
        have := (List.getElem?_eq_some_iff.mp found).1
        simp only [List.length_append, List.length_singleton] at this
        omega
      obtain ⟨⟨rfl, rfl⟩, rfl⟩ : (batch = batch' ∧ write = write') ∧
          (process.writeThrough verifier (batch, write)).2 = summary' := by
        simpa using found
      have member : nf ∈ (process.ledger.applyCheckpoint verifier batch).1.nullifiers := by
        rw [Ledger.nullifiers_applyCheckpoint_union]
        exact Finset.mem_union_right _ (List.mem_toFinset.mpr accepted)
      refine ⟨member, _, LastWrite.newest (by rw [List.length_map]) (.inl (List.length_map _)), ?_⟩
      rw [nullifierHeight_written lawful verifier batch write member (.inr accepted), count]

theorem journalled_genesis (emission : EmissionParams) (validators : List ValidatorInfo)
    (difficultyBits : ℕ) (genesisNotes : List (Commitment × UInt64)) :
    let ledger := Ledger.genesis emission validators difficultyBits genesisNotes
    Journalled [] ⟨ledger, ledger.persist Store.open⟩ where
  holds := (Store.holds_open lawful).commitCheckpoint lawful _ _ List.nil_prefix
    (Finset.empty_subset _)
  height := rfl
  supply := rfl
  length := rfl
  dated := by simp

theorem journalled_run (emission : EmissionParams) (validators : List ValidatorInfo)
    (difficultyBits : ℕ) (genesisNotes : List (Commitment × UInt64)) (verifier : SpendVerifier)
    (entries : List (List TxV1 × Write)) :
    let genesis := Ledger.genesis emission validators difficultyBits genesisNotes
    let outcome := Machine.run (writeThrough verifier) ⟨genesis, genesis.persist Store.open⟩ entries
    Journalled (entries.zip outcome.2) outcome.1 := by
  have history := Machine.run_history (writeThrough verifier) Journalled
    (journalled_writeThrough lawful verifier)
    (journalled_genesis lawful emission validators difficultyBits genesisNotes) entries
  rwa [List.nil_append] at history

end Process

/-- Writing through is durable at every checkpoint.  Whichever checkpoints of a run from
genesis write their delta and whichever write a snapshot, the run is the plain one, and the
store restores the leaves, nullifiers, height and supply of the ledger that wrote last (with
its current anchor alone and an empty quota registry) and answers for its nullifiers.  A
nullifier is dated by the last snapshot since its acceptance, or else by its acceptance. -/
theorem write_through_restores (lawful : OrderedTables.Lawful) (emission : EmissionParams)
    (validators : List ValidatorInfo) (difficultyBits : ℕ)
    (genesisNotes : List (Commitment × UInt64)) (verifier : SpendVerifier)
    (entries : List (List TxV1 × Write)) :
    let genesis := Ledger.genesis emission validators difficultyBits genesisNotes
    let outcome := Machine.run (Process.writeThrough verifier)
      ⟨genesis, genesis.persist Store.open⟩ entries
    let store := outcome.1.store
    let ledger := outcome.1.ledger
    genesis.run verifier (entries.map Prod.fst) = (ledger, outcome.2) ∧
    (∀ emission' validators' difficultyBits',
      Ledger.restore store emission' validators' difficultyBits' =
        .ok (Process.reopened ledger emission' validators' difficultyBits')) ∧
    (∀ nf, store.containsNullifier nf = true ↔ nf ∈ ledger.nullifiers) ∧
    store.nullifierCount = ledger.nullifiers.card ∧
    ∀ k batch write summary, (entries.zip outcome.2)[k]? = some ((batch, write), summary) →
      ∀ nf ∈ nullifiersOf (acceptedTxs batch summary.rejected),
        ∃ last, LastWrite (entries.map Prod.snd) k last ∧
          store.nullifierHeight nf = some (last + 1) := by
  intro genesis outcome store ledger
  have journalled := Process.journalled_run lawful emission validators difficultyBits genesisNotes
    verifier entries
  have writes : (entries.zip outcome.2).map (fun entry => entry.1.2) = entries.map Prod.snd := by
    have firsts : (entries.zip outcome.2).map Prod.fst = entries :=
      List.map_fst_zip (Machine.length_outputs ..).ge
    calc (entries.zip outcome.2).map (fun entry => entry.1.2)
        = ((entries.zip outcome.2).map Prod.fst).map Prod.snd := by simp
      _ = entries.map Prod.snd := by rw [firsts]
  refine ⟨?_, ?_, fun nf => journalled.holds.containsNullifier nf,
    journalled.holds.nullifierCount lawful, ?_⟩
  · exact Process.run_writeThrough verifier ⟨genesis, genesis.persist Store.open⟩ entries
  · intro emission' validators' difficultyBits'
    rw [Ledger.restore_of_holds lawful journalled.holds, journalled.height, journalled.supply]
    rfl
  · intro k batch write summary found nf accepted
    rw [← writes]
    exact (journalled.dated k batch write summary found nf accepted).2

/-- Permanent state grows by accepted transactions alone.  After any run that writes
through, the store takes 32 bytes for each genesis note, 128 for each accepted transaction
and 32 for each reward note: what was rejected leaves no trace. -/
theorem permanent_state_growth (lawful : OrderedTables.Lawful) (emission : EmissionParams)
    (validators : List ValidatorInfo) (difficultyBits : ℕ)
    (genesisNotes : List (Commitment × UInt64)) (verifier : SpendVerifier)
    (entries : List (List TxV1 × Write)) :
    let genesis := Ledger.genesis emission validators difficultyBits genesisNotes
    let outcome := Machine.run (Process.writeThrough verifier)
      ⟨genesis, genesis.persist Store.open⟩ entries
    outcome.1.store.permanentBytes =
      32 * genesisNotes.length + (outcome.2.map CheckpointSummary.permanentBytes).sum := by
  intro genesis outcome
  have journalled : Process.Journalled (entries.zip outcome.2) outcome.1 :=
    Process.journalled_run lawful emission validators difficultyBits genesisNotes verifier entries
  have plain : genesis.run verifier (entries.map Prod.fst) = (outcome.1.ledger, outcome.2) :=
    Process.run_writeThrough verifier ⟨genesis, genesis.persist Store.open⟩ entries
  have grown := genesis.permanent_run verifier (entries.map Prod.fst)
  have allocated : genesis.tree.leaves.length = genesisNotes.length := by
    change (Ledger.genesis ..).tree.leaves.length = _
    rw [Ledger.genesis_eq]
    exact List.length_map _
  have unspent : genesis.nullifiers.card = 0 := rfl
  rw [journalled.holds.permanentBytes lawful]
  rwa [plain, allocated, unspent, Nat.mul_zero, Nat.add_zero] at grown

end Journal

section Samples

open Reference

/-- A delta with the sample spend, then a snapshot. -/
def sampleWrites : List (List TxV1 × Write) := [([sampleTx], .delta), ([], .snapshot)]

/-- The process that writes them through. -/
def writtenThrough : Process :=
  (Machine.run (Process.writeThrough sampleVerifier)
    ⟨sampleLedger, sampleLedger.persist Store.open⟩ sampleWrites).1

/-- The store answers for both nullifiers of the spend and restores the ledger. -/
theorem write_through_restores_sample :
    Ledger.restore writtenThrough.store sampleEmission sampleValidators 0 =
        .ok (Process.reopened writtenThrough.ledger sampleEmission sampleValidators 0) ∧
      writtenThrough.store.nullifierCount = 2 ∧
      ∀ nf ∈ sampleTx.nullifiers.toList, writtenThrough.store.containsNullifier nf = true := by
  obtain ⟨-, restored, contained, counted, -⟩ := write_through_restores redb_lawful sampleEmission
    sampleValidators 0 ([sampleNote].map fun note => (note.commitment, note.value)) sampleVerifier
    sampleWrites
  have spent : writtenThrough.ledger.nullifiers = sampleTx.nullifiers.toList.toFinset := by
    decide +kernel
  have two : sampleTx.nullifiers.toList.toFinset.card = 2 := by decide +kernel
  unfold writtenThrough sampleLedger at *
  refine ⟨restored _ _ _, ?_, fun nf named => ?_⟩
  · rw [counted, spent, two]
  · rw [contained, spent]
    exact List.mem_toFinset.mpr named

/-- One genesis note, one accepted transaction and two reward notes. -/
theorem permanent_state_growth_sample :
    writtenThrough.store.permanentBytes = 32 + 128 + 2 * 32 := by
  have grown := permanent_state_growth redb_lawful sampleEmission sampleValidators 0
    ([sampleNote].map fun note => (note.commitment, note.value)) sampleVerifier sampleWrites
  have summaries : ((Machine.run (Process.writeThrough sampleVerifier)
      ⟨sampleLedger, sampleLedger.persist Store.open⟩ sampleWrites).2.map
        CheckpointSummary.permanentBytes).sum = 128 + 2 * 32 := by
    decide +kernel
  unfold writtenThrough sampleLedger at *
  rw [grown, summaries]
  rfl

end Samples

end ShieldedLedger
