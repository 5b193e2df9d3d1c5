import ShieldedLedger.Emission
import ShieldedLedger.ProverDev
import ShieldedLedger.Storage
import ShieldedLedger.General.Machine
import Mathlib.Data.Finset.Sort

/-!
# Checkpoint state machine

One checkpoint applies an ordered list of transactions: each is rejected for
one of four reasons or staged; the staged nullifiers and commitments are then
committed, the validator rewards minted, and a new anchor sealed.
-/

namespace ShieldedLedger

/-- Checkpoints per quota epoch. -/
def epochLength : ℕ := 100

structure ValidatorInfo where
  weight : UInt64
  addrTag : Bytes32
  deriving DecidableEq

inductive RejectReason where
  | staleOrUnknownAnchor
  | doubleSpend
  | statelessInvalid
  /-- Quota lane: wrong epoch or a slot reused. -/
  | quotaRejected
  deriving DecidableEq

structure CheckpointSummary where
  height : ℕ
  anchor : Anchor
  accepted : ℕ
  rejected : List (ℕ × RejectReason)
  rewards : RewardDescriptor
  totalSupply : UInt64
  /-- Positions of the accepted transactions' output commitments. -/
  outputPositions : List ℕ
  deriving DecidableEq

structure Ledger where
  tree : CommitmentTree
  nullifiers : Finset Nullifier
  quota : QuotaRegistry
  height : ℕ
  supply : UInt64
  emission : EmissionParams
  validators : List ValidatorInfo
  difficultyBits : ℕ

/-- What one checkpoint has staged while it walks through its transactions. -/
structure Staged where
  nullifiers : List Nullifier
  commitments : List Commitment
  seenThisCheckpoint : Finset Nullifier
  accepted : ℕ
  rejected : List (ℕ × RejectReason)
  quota : QuotaRegistry

namespace Staged

def init (quota : QuotaRegistry) : Staged := ⟨[], [], ∅, 0, [], quota⟩

def reject (staged : Staged) (i : ℕ) (reason : RejectReason) : Staged :=
  { staged with rejected := staged.rejected ++ [(i, reason)] }

def accept (staged : Staged) (tx : TxV1) : Staged :=
  { staged with
    seenThisCheckpoint := tx.nullifiers.toList.foldl (fun seen nf => insert nf seen)
      staged.seenThisCheckpoint
    nullifiers := staged.nullifiers ++ tx.nullifiers.toList
    commitments := staged.commitments ++ tx.commitments.toList
    accepted := staged.accepted + 1 }

end Staged

variable [Blake3]

/-- The note minted to a validator for its share. -/
def rewardNote (validators : List ValidatorInfo) (height : ℕ) (share : RewardShare) : Note where
  value := share.amount
  addrTag := ((validators[share.validatorIndex.toNat]?).map ValidatorInfo.addrTag).getD
    (Bytes.filled 32 0)
  rho := rhoMint height share.validatorIndex.toUInt8
  rseed := rhoMint height (128 + share.validatorIndex.toUInt8)

namespace Ledger

/-- Create a ledger with a genesis allocation and seal the anchor at height 0. -/
def genesis (emission : EmissionParams) (validators : List ValidatorInfo) (difficultyBits : ℕ)
    (genesisNotes : List (Commitment × UInt64)) : Ledger :=
  let funded := genesisNotes.foldl
    (fun (acc : CommitmentTree × UInt64) entry => ((acc.1.append entry.1).1, acc.2 + entry.2))
    (CommitmentTree.new, 0)
  { tree := (funded.1.seal 0).1
    nullifiers := ∅
    quota := QuotaRegistry.new
    height := 0
    supply := funded.2
    emission, validators, difficultyBits }

def totalSupply (self : Ledger) : UInt64 := self.supply

def currentAnchor (self : Ledger) : Anchor := ⟨self.height, self.tree.root⟩

def nullifierSeen (self : Ledger) (nf : Nullifier) : Bool := nf ∈ self.nullifiers

/-- The body of the loop over the ordered transactions. -/
def stageTx (self : Ledger) (verifier : SpendVerifier) (i : ℕ) (tx : TxV1) (staged : Staged) :
    Staged :=
  if !self.tree.anchorValid tx.anchor then staged.reject i .staleOrUnknownAnchor
  else if validateStateless tx verifier self.difficultyBits ≠ .ok () then
    staged.reject i .statelessInvalid
  else if tx.nullifiers.toList.any fun nf =>
      decide (nf ∈ self.nullifiers) || decide (nf ∈ staged.seenThisCheckpoint) then
    staged.reject i .doubleSpend
  else match tx.antispam with
    | .pow _ => staged.accept tx
    | .quota rp =>
        if rp.epoch ≠ (self.height + 1) / epochLength then staged.reject i .quotaRejected
        else
          -- `admitProof` updates the registry in place
          match staged.quota.admitProof rp with
          | (quota, .ok) => { staged with quota := quota }.accept tx
          | (quota, _) => { staged with quota := quota }.reject i .quotaRejected

/-- Walk through the transactions from index `i` on. -/
def stageFrom (self : Ledger) (verifier : SpendVerifier) : (i : ℕ) → List TxV1 → Staged → Staged
  | _, [], staged => staged
  | i, tx :: rest, staged =>
      self.stageFrom verifier (i + 1) rest (self.stageTx verifier i tx staged)

/-- Mint the reward notes in share order. -/
def mintRewards (self : Ledger) (height : ℕ) (shares : List RewardShare) : Ledger :=
  shares.foldl
    (fun ledger share =>
      { ledger with
        tree := (ledger.tree.append (rewardNote self.validators height share).commitment).1
        supply := ledger.supply + share.amount })
    self

/-- Apply one checkpoint of ordered transactions. -/
def applyCheckpoint (self : Ledger) (verifier : SpendVerifier) (ordered : List TxV1) :
    Ledger × CheckpointSummary :=
  let nextHeight := self.height + 1
  let staged := self.stageFrom verifier 0 ordered (Staged.init self.quota)
  let nullifiers := staged.nullifiers.foldl (fun set nf => insert nf set) self.nullifiers
  let base := self.tree.len
  let outputPositions := List.range' base staged.commitments.length
  let tree := staged.commitments.foldl (fun tree cm => (tree.append cm).1) self.tree
  let weights := self.validators.map ValidatorInfo.weight
  let rewards := rewardDescriptor self.emission nextHeight weights
  let minted := { self with tree, nullifiers, quota := staged.quota }.mintRewards nextHeight
    rewards.shares
  let (tree, anchor) := minted.tree.seal nextHeight
  ({ minted with tree, height := nextHeight },
    { height := nextHeight
      anchor
      accepted := staged.accepted
      rejected := staged.rejected
      rewards
      totalSupply := minted.supply
      outputPositions })

/-- A sequence of checkpoints. -/
def run (self : Ledger) (verifier : SpendVerifier) (batches : List (List TxV1)) :
    Ledger × List CheckpointSummary :=
  Machine.run (fun ledger ordered => ledger.applyCheckpoint verifier ordered) self batches

omit [Blake3] in
/-- Audit: supply equals genesis allocation plus all emission to date. -/
def auditSupply (self : Ledger) (genesisSupply : UInt64) : Bool :=
  let minted := (List.range' 1 self.height).foldl
    (fun minted height => minted + self.emission.emissionAt height) 0
  self.supply == genesisSupply + minted

def treeWitness (self : Ledger) (position : ℕ) : Option MerklePath := self.tree.witness position

omit [Blake3] in
def anchorValid (self : Ledger) (anchor : Anchor) : Bool := self.tree.anchorValid anchor

omit [Blake3] in
/-- Persist the full permanent state as one snapshot. -/
def persist [Redb] (self : Ledger) (store : Store) : Store :=
  let leaves := self.tree.leaves.mapIdx fun i leaf => (i, Commitment.mk leaf)
  let nullifiers := self.nullifiers.sort (· ≤ ·)
  store.commitCheckpoint self.height self.supply leaves nullifiers

/-- Rebuild a ledger from a persisted store after a restart. -/
def restore [Redb] (store : Store) (emission : EmissionParams)
    (validators : List ValidatorInfo) (difficultyBits : ℕ) : Except StoreError Ledger := do
  let tree ← store.loadTree
  let height := store.height.getD 0
  let supply := store.supply.getD 0
  let nullifiers ← store.loadNullifiers
  .ok {
    tree := (tree.seal height).1
    nullifiers := nullifiers.toFinset
    quota := QuotaRegistry.new
    height, supply, emission, validators, difficultyBits }

/-- The current quota epoch; wallets sign quota rate proofs for it. -/
def currentEpoch (self : Ledger) : ℕ := self.height / epochLength

end Ledger

end ShieldedLedger
