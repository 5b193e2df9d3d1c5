import ShieldedLedger.State
import ShieldedLedger.Wallet

/-!
# Single-sequencer node

The node applies a checkpoint and tells the wallets: the nullifiers of the
transactions, then the encrypted outputs of the accepted ones with their positions.
-/

namespace ShieldedLedger

structure Demo where
  ledger : Ledger
  genesisSupply : UInt64

/-- Indices of the transactions a summary does not reject. -/
def CheckpointSummary.acceptedIndices (summary : CheckpointSummary) (txs : List TxV1) : List ℕ :=
  (List.range txs.length).filter fun i => !summary.rejected.any fun entry => entry.1 == i

/-- The outputs of the accepted transactions with their positions, in order. -/
def CheckpointSummary.offers (summary : CheckpointSummary) (txs : List TxV1) :
    List (EncryptedOutput × ℕ) :=
  let encOutputs := txs.map TxV1.encOutputs
  let accepted := (summary.acceptedIndices txs).flatMap fun i =>
    ((encOutputs[i]?).map List.Vector.toList).getD []
  accepted.zip summary.outputPositions

variable [Blake3]

/-- The line a checkpoint logs. -/
def Demo.report (self : Demo) (summary : CheckpointSummary) : String :=
  "checkpoint " ++ toString summary.height ++ " sealed: " ++ toString summary.accepted ++
    " accepted, " ++ toString summary.rejected.length ++ " rejected, emission " ++
    toString summary.rewards.total ++ ", supply " ++ toString summary.totalSupply ++ " (audit " ++
    (if self.ledger.auditSupply self.genesisSupply then "OK" else "FAIL") ++ ")"

variable [Ciphers]

/-- Apply a checkpoint and deliver each accepted transaction's encrypted outputs to
the candidate wallets. -/
def Demo.checkpoint (self : Demo) (txs : List TxV1) (wallets : List Wallet) :
    Demo × List Wallet × String :=
  let (ledger, summary) := self.ledger.applyCheckpoint devVerifier txs
  let demo : Demo := { self with ledger }
  let allNf := txs.flatMap fun tx => tx.nullifiers.toList
  let observed := wallets.map fun w => w.observeNullifiers allNf
  let served := (summary.offers txs).foldl
    (fun wallets offer => wallets.map fun w => (w.tryReceive offer.1 offer.2).1) observed
  (demo, served, demo.report summary)

omit [Ciphers] in
def Demo.anchor (self : Demo) : Anchor := self.ledger.currentAnchor

end ShieldedLedger
