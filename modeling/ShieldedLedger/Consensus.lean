import ShieldedLedger.General.FirstWins
import ShieldedLedger.State

/-!
# Deterministic consensus model

A round dedups the submitted transactions by binding digest, orders them by it,
and applies that order to every replica.
-/

namespace ShieldedLedger

structure RoundOutcome where
  height : ℕ
  root : Bytes32
  accepted : ℕ
  rejected : List (ℕ × RejectReason)
  totalSupply : UInt64
  /-- Every replica produced an identical anchor, accept count and supply. -/
  agreed : Bool
  deriving DecidableEq

/-- A cluster of validator replicas, each with an independent ledger. -/
structure Cluster where
  replicas : List Ledger
  genesisSupply : UInt64

variable [Blake3]

/-- Canonical commit order for a round: the first submitted transaction of each
binding digest, in digest order. -/
def commitOrder (submitted : List TxV1) : List TxV1 :=
  FirstWins.order TxV1.bindingDigest submitted

namespace Cluster

def new (n : ℕ) (emission : EmissionParams) (validators : List ValidatorInfo)
    (difficultyBits : ℕ) (genesisNotes : List (Commitment × UInt64)) : Cluster where
  genesisSupply := genesisNotes.foldl (fun sum entry => sum + entry.2) 0
  replicas := (List.range n).map fun _ =>
    Ledger.genesis emission validators difficultyBits genesisNotes

/-- Commit one checkpoint on every replica; a cluster without replicas panics. -/
def commitRound (self : Cluster) (verifier : SpendVerifier) (submitted : List TxV1) :
    Option (Cluster × RoundOutcome) :=
  let ordered := commitOrder submitted
  let results := self.replicas.map fun replica => replica.applyCheckpoint verifier ordered
  let summaries := results.map Prod.snd
  match summaries with
  | [] => none
  | first :: _ =>
      let agreed := summaries.all fun s =>
        s.anchor.root == first.anchor.root && s.accepted == first.accepted &&
          s.totalSupply == first.totalSupply && s.height == first.height
      some ({ self with replicas := results.map Prod.fst },
        { height := first.height
          root := first.anchor.root
          accepted := first.accepted
          rejected := first.rejected
          totalSupply := first.totalSupply
          agreed })

/-- The current anchor all replicas agree on; replica 0 is representative. -/
def anchor (self : Cluster) : Option Anchor := self.replicas.head?.map Ledger.currentAnchor

def treeWitness (self : Cluster) (position : ℕ) : Option (Option MerklePath) :=
  self.replicas.head?.map fun replica => replica.treeWitness position

omit [Blake3] in
/-- Audit supply on every replica. -/
def audit (self : Cluster) : Bool :=
  self.replicas.all fun replica => replica.auditSupply self.genesisSupply

/-- A sequence of rounds. -/
def runRounds (self : Cluster) (verifier : SpendVerifier) :
    List (List TxV1) → Option (Cluster × List RoundOutcome)
  | [] => some (self, [])
  | submitted :: rest => do
      let (next, outcome) ← self.commitRound verifier submitted
      let (final, outcomes) ← next.runRounds verifier rest
      return (final, outcome :: outcomes)

end Cluster

end ShieldedLedger
