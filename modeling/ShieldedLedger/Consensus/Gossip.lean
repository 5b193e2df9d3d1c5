import ShieldedLedger.Consensus.Interchange
import ShieldedLedger.State.Cuts

/-!
# Clusters that hear the same gossip

Two clusters of any sizes start from one genesis and hear, round by round, the same
transactions: in any order, some of them more than once, and where two of them share a
digest, whichever of two interchangeable ones.  The replicas of both stay in lockstep, and
both report the same in every round.
-/

namespace ShieldedLedger

/-- Ledgers that differ at most in what their registries remember of the same slots. -/
def Twin (left right : Ledger) : Prop :=
  ∃ registry, left = { right with quota := registry } ∧ SameSlots registry right.quota

theorem Twin.refl (ledger : Ledger) : Twin ledger ledger := ⟨ledger.quota, rfl, fun _ => rfl⟩

section Gossip

variable [Blake3]

/-- The submissions have the same digests, and transactions of one digest are
interchangeable. -/
structure SameGossip (left right : List TxV1) : Prop where
  digests : ∀ digest, digest ∈ left.map TxV1.bindingDigest ↔
    digest ∈ right.map TxV1.bindingDigest
  alike : ∀ tx ∈ left, ∀ tx' ∈ right, tx.bindingDigest = tx'.bindingDigest →
    Interchangeable tx tx'

theorem Interchangeable.refl (tx : TxV1) : Interchangeable tx tx := ⟨rfl, rfl⟩

theorem SameGossip.ordered {left right : List TxV1} (gossip : SameGossip left right) :
    List.Forall₂ Interchangeable (commitOrder left) (commitOrder right) :=
  (FirstWins.forall₂_order gossip.digests).imp fun _ _ related =>
    gossip.alike _ related.1 _ related.2.1 related.2.2

namespace Ledger

/-- Staging does not look at the registry of the ledger, only at the staged one. -/
theorem stageFrom_quota (self : Ledger) (registry : QuotaRegistry) (verifier : SpendVerifier)
    (ordered : List TxV1) : ∀ (i : ℕ) (staged : Staged),
      { self with quota := registry }.stageFrom verifier i ordered staged =
        self.stageFrom verifier i ordered staged := by
  induction ordered with
  | nil => exact fun _ _ => rfl
  | cons tx rest ih => exact fun i staged => ih (i + 1) _

/-- Twins that apply interchangeable batches report the same and stay twins. -/
theorem twin_applyCheckpoint {left right : Ledger} (twin : Twin left right)
    (verifier : SpendVerifier) {ordered ordered' : List TxV1}
    (alike : List.Forall₂ Interchangeable ordered ordered') :
    (left.applyCheckpoint verifier ordered).2 = (right.applyCheckpoint verifier ordered').2 ∧
      Twin (left.applyCheckpoint verifier ordered).1
        (right.applyCheckpoint verifier ordered').1 := by
  obtain ⟨registry, rfl, slots⟩ := twin
  have initial : (Staged.init registry).SameUpTo SameSlots (Staged.init right.quota) :=
    ⟨registry, rfl, slots⟩
  obtain ⟨staged, same, agreed⟩ := right.stageFrom_sameUpTo verifier alike 0 initial
  constructor
  · simp only [applyCheckpoint, mintRewards_eq, stageFrom_quota, same]
  · refine ⟨staged, ?_, ?_⟩
    · simp only [applyCheckpoint, mintRewards_eq, stageFrom_quota, same]
    · rw [applyCheckpoint_quota]
      exact agreed

omit [Blake3] in
theorem auditSupply_of_twin {left right : Ledger} (twin : Twin left right) (supply : UInt64) :
    left.auditSupply supply = right.auditSupply supply := by
  obtain ⟨registry, rfl, -⟩ := twin
  rfl

end Ledger

/-! ## Clusters in lockstep -/

namespace Cluster

/-- What a round reports when all replicas report one summary. -/
def agreedOutcome (summary : CheckpointSummary) : RoundOutcome where
  height := summary.height
  root := summary.anchor.root
  accepted := summary.accepted
  rejected := summary.rejected
  totalSupply := summary.totalSupply
  agreed := true

/-- A cluster whose replicas are one ledger commits a round as that ledger does. -/
theorem commitRound_replicate (count : ℕ) (ledger : Ledger) (genesisSupply : UInt64)
    (verifier : SpendVerifier) (submitted : List TxV1) :
    commitRound ⟨List.replicate (count + 1) ledger, genesisSupply⟩ verifier submitted =
      let next := ledger.applyCheckpoint verifier (commitOrder submitted)
      some (⟨List.replicate (count + 1) next.1, genesisSupply⟩, agreedOutcome next.2) := by
  simp [commitRound, agreedOutcome, List.replicate_succ]

theorem new_eq (count : ℕ) (emission : EmissionParams) (validators : List ValidatorInfo)
    (difficultyBits : ℕ) (genesisNotes : List (Commitment × UInt64)) :
    new count emission validators difficultyBits genesisNotes =
      ⟨List.replicate count (Ledger.genesis emission validators difficultyBits genesisNotes),
        genesisNotes.foldl (fun sum entry => sum + entry.2) 0⟩ := by
  simp [new, List.map_const']

/-- Twin clusters that hear the same gossip report the same, round by round. -/
theorem runRounds_of_twin (genesisSupply : UInt64) (verifier : SpendVerifier) (m n : ℕ)
    {rounds : List (List TxV1 × List TxV1)}
    (gossip : ∀ round ∈ rounds, SameGossip round.1 round.2) {left right : Ledger}
    (twin : Twin left right) :
    ∃ left' right' outcomes, Twin left' right' ∧ (∀ outcome ∈ outcomes, outcome.agreed = true) ∧
      runRounds ⟨List.replicate (m + 1) left, genesisSupply⟩ verifier (rounds.map Prod.fst) =
        some (⟨List.replicate (m + 1) left', genesisSupply⟩, outcomes) ∧
      runRounds ⟨List.replicate (n + 1) right, genesisSupply⟩ verifier (rounds.map Prod.snd) =
        some (⟨List.replicate (n + 1) right', genesisSupply⟩, outcomes) := by
  induction rounds generalizing left right with
  | nil => exact ⟨left, right, [], twin, nofun, rfl, rfl⟩
  | cons round rest ih =>
      obtain ⟨summaries, next⟩ := Ledger.twin_applyCheckpoint twin verifier
        (gossip round (List.mem_cons_self ..)).ordered
      obtain ⟨left', right', outcomes, twin', agreed, leftRan, rightRan⟩ :=
        ih (fun other member => gossip other (List.mem_cons_of_mem _ member)) next
      refine ⟨left', right', agreedOutcome
        (right.applyCheckpoint verifier (commitOrder round.2)).2 :: outcomes, twin', ?_, ?_, ?_⟩
      · intro outcome member
        rcases List.mem_cons.mp member with rfl | later
        · rfl
        · exact agreed outcome later
      · rw [List.map_cons, runRounds, commitRound_replicate, ← summaries]
        simp only [Option.bind_eq_bind, Option.bind_some, leftRan]
        rfl
      · rw [List.map_cons, runRounds, commitRound_replicate]
        simp only [Option.bind_eq_bind, Option.bind_some, rightRan]
        rfl

end Cluster

/-- Whatever their sizes, clusters that hear the same digests in every round, in any order and
any number of times, agree in every round: within themselves and with each other on height,
root, accepted and rejected transactions and supply, and in the end on the anchor, on the audit
and on every witness.  This needs what `SameGossip.alike` asks for, that transactions of one
digest are interchangeable: of two that are not, each cluster keeps the one it hears first. -/
theorem gossip_invisible (emission : EmissionParams) (validators : List ValidatorInfo)
    (difficultyBits : ℕ) (genesisNotes : List (Commitment × UInt64)) (verifier : SpendVerifier)
    (m n : ℕ) (rounds : List (List TxV1 × List TxV1))
    (gossip : ∀ round ∈ rounds, SameGossip round.1 round.2) :
    let start (count : ℕ) := Cluster.new count emission validators difficultyBits genesisNotes
    ∃ left right outcomes,
      (start (m + 1)).runRounds verifier (rounds.map Prod.fst) = some (left, outcomes) ∧
      (start (n + 1)).runRounds verifier (rounds.map Prod.snd) = some (right, outcomes) ∧
      (∀ outcome ∈ outcomes, outcome.agreed = true) ∧
      left.anchor = right.anchor ∧ left.audit = right.audit ∧
      ∀ position, left.treeWitness position = right.treeWitness position := by
  intro start
  obtain ⟨left, right, outcomes, twin, agreed, leftRan, rightRan⟩ :=
    Cluster.runRounds_of_twin (genesisNotes.foldl (fun sum entry => sum + entry.2) 0) verifier m n
      gossip (Twin.refl (Ledger.genesis emission validators difficultyBits genesisNotes))
  refine ⟨_, _, outcomes, (Cluster.new_eq ..).symm ▸ leftRan, (Cluster.new_eq ..).symm ▸ rightRan,
    agreed, ?_, ?_, ?_⟩
  · obtain ⟨registry, rfl, -⟩ := twin
    rfl
  · simp [Cluster.audit, List.all_replicate, Ledger.auditSupply_of_twin twin]
  · obtain ⟨registry, rfl, -⟩ := twin
    exact fun _ => rfl

end Gossip

section Samples

open Reference

/-- One replica that hears a transaction twice, and three that hear the round in the other
order. -/
theorem agedTxs_gossip :
    let start (count : ℕ) := Cluster.new count sampleEmission [] 0 []
    ((start 1).runRounds devVerifier [[agedTx, otherAgedTx, agedTx]]).map Prod.snd =
      ((start 3).runRounds devVerifier [[otherAgedTx, agedTx]]).map Prod.snd := by
  have gossip : SameGossip [agedTx, otherAgedTx, agedTx] [otherAgedTx, agedTx] := by
    constructor
    · simp [or_comm]
    · have apart : agedTx.bindingDigest ≠ otherAgedTx.bindingDigest := by decide +kernel
      simp [apart, apart.symm, Interchangeable.refl]
  obtain ⟨left, right, outcomes, leftRan, rightRan, -⟩ := gossip_invisible sampleEmission [] 0 []
    devVerifier 0 2 [([agedTx, otherAgedTx, agedTx], [otherAgedTx, agedTx])]
    (List.forall_mem_singleton.mpr gossip)
  exact (congrArg (Option.map Prod.snd) leftRan).trans
    (congrArg (Option.map Prod.snd) rightRan).symm

end Samples

end ShieldedLedger
