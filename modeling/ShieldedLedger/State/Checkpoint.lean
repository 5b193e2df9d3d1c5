import ShieldedLedger.Emission.Shares
import ShieldedLedger.ProverDev.Statement
import ShieldedLedger.State.Staging

/-!
# One checkpoint

Every component of the ledger and of the summary after a checkpoint, in terms
of the staged transactions and the reward notes.
-/

namespace ShieldedLedger

section Components

@[simp] theorem foldl_append_eq (commitments : List Commitment) (tree : CommitmentTree) :
    commitments.foldl (fun tree cm => (tree.append cm).1) tree =
      { tree with leaves := tree.leaves ++ commitments.map Commitment.bytes } := by
  induction commitments generalizing tree with
  | nil => simp
  | cons cm rest ih =>
      rw [List.foldl_cons, ih]
      simp [CommitmentTree.append]

variable [Blake3]

namespace Ledger

/-- The reward descriptor of the next checkpoint. -/
def nextRewards (self : Ledger) : RewardDescriptor :=
  rewardDescriptor self.emission (self.height + 1) (self.validators.map ValidatorInfo.weight)

/-- The reward notes of the next checkpoint. -/
def rewardNotes (self : Ledger) : List Note :=
  self.nextRewards.shares.map (rewardNote self.validators (self.height + 1))

theorem mintRewards_eq (self : Ledger) (height : ℕ) (shares : List RewardShare) :
    self.mintRewards height shares =
      { self with
        tree := { self.tree with
          leaves := self.tree.leaves ++
            shares.map fun share => (rewardNote self.validators height share).commitment.bytes }
        supply := shares.foldl (fun supply share => supply + share.amount) self.supply } := by
  have general (start : Ledger) : shares.foldl
      (fun ledger share =>
        { ledger with
          tree := (ledger.tree.append (rewardNote self.validators height share).commitment).1
          supply := ledger.supply + share.amount }) start =
      { start with
        tree := { start.tree with
          leaves := start.tree.leaves ++
            shares.map fun share => (rewardNote self.validators height share).commitment.bytes }
        supply := shares.foldl (fun supply share => supply + share.amount) start.supply } := by
    induction shares generalizing start with
    | nil => simp
    | cons share rest ih =>
        rw [List.foldl_cons, ih]
        simp [CommitmentTree.append]
  exact general self

section Fields

variable (self : Ledger) (verifier : SpendVerifier) (ordered : List TxV1)

@[simp] theorem applyCheckpoint_height :
    (self.applyCheckpoint verifier ordered).1.height = self.height + 1 := rfl

@[simp] theorem applyCheckpoint_emission :
    (self.applyCheckpoint verifier ordered).1.emission = self.emission := by
  simp [applyCheckpoint, mintRewards_eq]

@[simp] theorem applyCheckpoint_validators :
    (self.applyCheckpoint verifier ordered).1.validators = self.validators := by
  simp [applyCheckpoint, mintRewards_eq]

@[simp] theorem applyCheckpoint_difficultyBits :
    (self.applyCheckpoint verifier ordered).1.difficultyBits = self.difficultyBits := by
  simp [applyCheckpoint, mintRewards_eq]

theorem applyCheckpoint_quota :
    (self.applyCheckpoint verifier ordered).1.quota = (self.stageAll verifier ordered).quota := by
  simp [applyCheckpoint, mintRewards_eq, stageAll]

theorem applyCheckpoint_nullifiers :
    (self.applyCheckpoint verifier ordered).1.nullifiers =
      self.nullifiers ∪ (self.stageAll verifier ordered).nullifiers.toFinset := by
  simp [applyCheckpoint, mintRewards_eq, stageAll]

theorem applyCheckpoint_leaves :
    (self.applyCheckpoint verifier ordered).1.tree.leaves =
      self.tree.leaves ++
        ((self.stageAll verifier ordered).commitments.map Commitment.bytes ++
          self.rewardNotes.map fun note => note.commitment.bytes) := by
  simp [applyCheckpoint, mintRewards_eq, stageAll, rewardNotes, nextRewards, CommitmentTree.seal,
    Function.comp_def]

theorem applyCheckpoint_anchors :
    (self.applyCheckpoint verifier ordered).1.tree.anchors =
      CommitmentTree.evict (self.height + 1)
        (self.tree.anchors ++ [(self.applyCheckpoint verifier ordered).1.currentAnchor]) := by
  simp [applyCheckpoint, mintRewards_eq, CommitmentTree.seal, currentAnchor, CommitmentTree.root]

theorem applyCheckpoint_supply :
    (self.applyCheckpoint verifier ordered).1.supply =
      self.nextRewards.shares.foldl (fun supply share => supply + share.amount) self.supply := by
  simp [applyCheckpoint, mintRewards_eq, nextRewards]

@[simp] theorem applyCheckpoint_summary_height :
    (self.applyCheckpoint verifier ordered).2.height = self.height + 1 := rfl

@[simp] theorem applyCheckpoint_summary_rewards :
    (self.applyCheckpoint verifier ordered).2.rewards = self.nextRewards := rfl

theorem applyCheckpoint_summary_anchor :
    (self.applyCheckpoint verifier ordered).2.anchor =
      (self.applyCheckpoint verifier ordered).1.currentAnchor := by
  simp [applyCheckpoint, CommitmentTree.seal, currentAnchor, CommitmentTree.root]

theorem applyCheckpoint_summary_accepted :
    (self.applyCheckpoint verifier ordered).2.accepted =
      (self.stageAll verifier ordered).accepted := rfl

theorem applyCheckpoint_summary_rejected :
    (self.applyCheckpoint verifier ordered).2.rejected =
      (self.stageAll verifier ordered).rejected := rfl

theorem applyCheckpoint_summary_totalSupply :
    (self.applyCheckpoint verifier ordered).2.totalSupply =
      (self.applyCheckpoint verifier ordered).1.supply := rfl

theorem applyCheckpoint_summary_outputPositions :
    (self.applyCheckpoint verifier ordered).2.outputPositions =
      List.range' self.tree.leaves.length (self.stageAll verifier ordered).commitments.length := rfl

/-- Rewards that fit add their exact sum to the supply. -/
theorem toNat_supply_applyCheckpoint
    (fits : self.supply.toNat + shareSum self.nextRewards.shares < 2 ^ 64) :
    (self.applyCheckpoint verifier ordered).1.supply.toNat =
      self.supply.toNat + shareSum self.nextRewards.shares := by
  rw [applyCheckpoint_supply]
  exact Checked.toNat_foldl_add RewardShare.amount self.nextRewards.shares fits

/-- A lone transaction is accepted exactly when there is no reason to reject it. -/
theorem accepted_singleton_iff (tx : TxV1) :
    (self.applyCheckpoint verifier [tx]).2.accepted = 1 ↔
      self.verdict verifier ∅ self.quota tx = none := by
  have verdicts : self.verdicts verifier [tx] =
      [(tx, self.verdict verifier ∅ self.quota tx)] := rfl
  rw [applyCheckpoint_summary_accepted, (self.tracks_stageAll verifier [tx]).accepted, verdicts]
  cases self.verdict verifier ∅ self.quota tx <;> simp [acceptedOf]

/-- The summary in terms of the ledger before and after. -/
theorem summary_eq :
    (self.applyCheckpoint verifier ordered).2 =
      { height := self.height + 1
        anchor := (self.applyCheckpoint verifier ordered).1.currentAnchor
        accepted := (self.stageAll verifier ordered).accepted
        rejected := (self.stageAll verifier ordered).rejected
        rewards := self.nextRewards
        totalSupply := (self.applyCheckpoint verifier ordered).1.supply
        outputPositions := List.range' self.tree.leaves.length
          (self.stageAll verifier ordered).commitments.length } := by
  rw [← applyCheckpoint_summary_anchor]
  rfl

end Fields

/-- Every checkpoint raises the height by one. -/
theorem run_height (self : Ledger) (verifier : SpendVerifier) (batches : List (List TxV1)) :
    (self.run verifier batches).1.height = self.height + batches.length := by
  induction batches generalizing self with
  | nil => rfl
  | cons batch batches ih =>
      have rest := ih (self.applyCheckpoint verifier batch).1
      rw [applyCheckpoint_height, Nat.add_assoc, Nat.add_comm 1] at rest
      exact rest

/-- The summary at an index is that of its batch, applied where the batches before it lead. -/
theorem getElem?_summaries (self : Ledger) (verifier : SpendVerifier)
    (batches : List (List TxV1)) (k : ℕ) :
    (self.run verifier batches).2[k]? = batches[k]?.map fun batch =>
      ((self.run verifier (batches.take k)).1.applyCheckpoint verifier batch).2 :=
  Machine.getElem?_outputs self batches k

/-- What no checkpoint changes, no run changes. -/
theorem run_constant {β : Type} (field : Ledger → β) (verifier : SpendVerifier)
    (kept : ∀ ledger batch, field (applyCheckpoint ledger verifier batch).1 = field ledger)
    (self : Ledger) (batches : List (List TxV1)) :
    field (self.run verifier batches).1 = field self :=
  Machine.run_invariant (fun (ledger : Ledger) batch => ledger.applyCheckpoint verifier batch)
    (fun ledger => field ledger = field self) (fun _ _ => True)
    (fun ledger batch same _ => (kept ledger batch).trans same)
    rfl (Machine.along_of_forall (fun _ _ _ => trivial) _)

theorem run_difficultyBits (self : Ledger) (verifier : SpendVerifier) (batches : List (List TxV1)) :
    (self.run verifier batches).1.difficultyBits = self.difficultyBits :=
  run_constant difficultyBits verifier
    (fun ledger batch => ledger.applyCheckpoint_difficultyBits verifier batch) self batches

theorem run_emission (self : Ledger) (verifier : SpendVerifier) (batches : List (List TxV1)) :
    (self.run verifier batches).1.emission = self.emission :=
  run_constant emission verifier
    (fun ledger batch => ledger.applyCheckpoint_emission verifier batch) self batches

/-- The genesis ledger holds the allocation and has sealed its anchor. -/
theorem genesis_eq (emission : EmissionParams) (validators : List ValidatorInfo)
    (difficultyBits : ℕ) (genesisNotes : List (Commitment × UInt64)) :
    genesis emission validators difficultyBits genesisNotes =
      let leaves := genesisNotes.map fun entry => entry.1.bytes
      { tree := ⟨leaves, [⟨0, CommitmentTree.root ⟨leaves, []⟩⟩]⟩
        nullifiers := ∅
        quota := QuotaRegistry.new
        height := 0
        supply := genesisNotes.foldl (fun supply entry => supply + entry.2) 0
        emission, validators, difficultyBits } := by
  have funded (tree : CommitmentTree) (supply : UInt64) : genesisNotes.foldl
      (fun (acc : CommitmentTree × UInt64) entry => ((acc.1.append entry.1).1, acc.2 + entry.2))
      (tree, supply) =
      ({ tree with leaves := tree.leaves ++ genesisNotes.map fun entry => entry.1.bytes },
        genesisNotes.foldl (fun supply entry => supply + entry.2) supply) := by
    induction genesisNotes generalizing tree supply with
    | nil => simp
    | cons entry rest ih =>
        rw [List.foldl_cons, ih]
        simp [CommitmentTree.append]
  simp [genesis, funded, CommitmentTree.new, CommitmentTree.seal, CommitmentTree.evict,
    CommitmentTree.root, anchorWindow]

end Ledger

end Components

/-! ## A sample ledger

The sample note is the whole allocation, and one validator is rewarded. -/

section Samples

open Reference

def sampleEmission : EmissionParams := ⟨10, 1, 100, by decide⟩

def sampleValidators : List ValidatorInfo := [⟨1, sampleKey.addrTag⟩]

def sampleLedger : Ledger :=
  Ledger.genesis sampleEmission sampleValidators 0
    ([sampleNote].map fun note => (note.commitment, note.value))

end Samples

end ShieldedLedger
