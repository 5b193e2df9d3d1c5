import ShieldedLedger.Node.Spentness

/-!
# Delivery at the node

The node reads the accepted transactions off the rejected indices and zips their outputs
with the positions the ledger has listed.  Both lists go through the accepted outputs in
order, so every output is offered with the position of its own commitment.
-/

namespace ShieldedLedger

/-- The indices that are not rejected list what the accepted transactions hold. -/
theorem flatMap_acceptedIndices {β : Type} (summary : CheckpointSummary) (txs : List TxV1)
    (held : TxV1 → List β) :
    ((summary.acceptedIndices txs).flatMap fun i => ((txs[i]?).map held).getD []) =
      (acceptedTxs txs summary.rejected).flatMap held := by
  have kept (i : ℕ) : (!summary.rejected.any fun entry => entry.1 == i) =
      decide (i ∉ summary.rejected.map Prod.fst) := by
    rw [Bool.eq_iff_iff]
    simp only [Bool.not_eq_true', List.any_eq_false, beq_iff_eq, decide_eq_true_eq, List.mem_map,
      not_exists, not_and]
  have indices : List.range txs.length = txs.zipIdx.map Prod.snd := by
    rw [List.zipIdx_map_snd, List.range_eq_range']
  have own (entry : TxV1 × ℕ) (member : entry ∈ txs.zipIdx) :
      ((txs[entry.2]?).map held).getD [] = held entry.1 := by
    rw [List.mk_mem_zipIdx_iff_getElem?.mp member]
    rfl
  rw [CheckpointSummary.acceptedIndices, indices, List.filter_map, List.flatMap_map, acceptedTxs,
    List.flatMap_map]
  simp only [Function.comp_def, kept]
  apply List.flatMap_congr
  intro entry member
  exact own entry (List.mem_of_mem_filter member)

section Runs

variable [Blake3]

namespace Ledger

/-- The outputs a checkpoint offers are those of the accepted transactions, with the
positions the ledger has listed. -/
theorem offers_applyCheckpoint (self : Ledger) (verifier : SpendVerifier) (txs : List TxV1) :
    let summary := (self.applyCheckpoint verifier txs).2
    let accepted := acceptedOf (self.verdicts verifier txs)
    summary.offers txs = (accepted.flatMap fun tx => tx.encOutputs.toList).zip
      (List.range' self.tree.leaves.length (txOutputs * accepted.length)) := by
  intro summary accepted
  have listed (i : ℕ) : (((txs.map TxV1.encOutputs)[i]?).map List.Vector.toList).getD [] =
      ((txs[i]?).map fun tx => tx.encOutputs.toList).getD [] := by
    rw [List.getElem?_map, Option.map_map]
    rfl
  have positions : summary.outputPositions =
      List.range' self.tree.leaves.length (txOutputs * accepted.length) := by
    rw [applyCheckpoint_summary_outputPositions, (self.tracks_stageAll verifier txs).commitments,
      commitmentsOf, Blocks.length_flatMap]
  simp only [CheckpointSummary.offers, listed]
  rw [flatMap_acceptedIndices, acceptedTxs_applyCheckpoint, positions]

/-- The leaf behind an output of an accepted transaction. -/
theorem getElem?_leaves_of_accepted (self : Ledger) (verifier : SpendVerifier) (txs : List TxV1)
    {i : ℕ} {tx : TxV1} (found : (acceptedOf (self.verdicts verifier txs))[i]? = some tx)
    (j : Fin txOutputs) :
    (self.applyCheckpoint verifier txs).1.tree.leaves[
      self.tree.leaves.length + (txOutputs * i + j)]? = some (tx.commitments.get j).bytes := by
  have commitment := getElem?_commitmentsOf j found
  have inside := (List.getElem?_eq_some_iff.mp commitment).1
  rw [applyCheckpoint_leaves, (self.tracks_stageAll verifier txs).commitments,
    List.getElem?_append_right (Nat.le_add_right _ _), Nat.add_sub_cancel_left,
    List.getElem?_append_left (by rwa [List.length_map]), List.getElem?_map, commitment,
    Option.map_some]

end Ledger

variable [Ciphers]

/-- What the node delivers is what the tree holds: every wallet is offered exactly the
outputs of the accepted transactions, in order, each with the position at which the
ledger holds its commitment. -/
theorem delivery_matches_tree (self : Demo) (txs : List TxV1) (wallets : List Wallet) :
    let outcome := self.checkpoint txs wallets
    let summary := (self.ledger.applyCheckpoint devVerifier txs).2
    let accepted := acceptedTxs txs summary.rejected
    summary.accepted = accepted.length ∧ ∃ offers : List (EncryptedOutput × ℕ),
      outcome.2.1 = wallets.map (fun w => w.handleAll
        (.observe (nullifiersOf txs) :: offers.map fun offer => .receive offer.1 offer.2)) ∧
      offers.map Prod.fst = (accepted.flatMap fun tx => tx.encOutputs.toList) ∧
      ∀ i tx, accepted[i]? = some tx → ∀ j : Fin txOutputs, ∃ position,
        offers[txOutputs * i + j]? = some (tx.encOutputs.get j, position) ∧
        outcome.1.ledger.tree.leaves[position]? = some (tx.commitments.get j).bytes := by
  intro outcome summary accepted
  have judged : accepted = acceptedOf (self.ledger.verdicts devVerifier txs) :=
    self.ledger.acceptedTxs_applyCheckpoint devVerifier txs
  have offered := self.ledger.offers_applyCheckpoint devVerifier txs
  rw [← judged] at offered
  refine ⟨(self.ledger.recorded_applyCheckpoint devVerifier txs).accepted, _,
    self.wallets_checkpoint txs wallets, ?_, ?_⟩
  · rw [offered]
    apply List.map_fst_zip
    rw [Blocks.length_flatMap, List.length_range']
  · intro i tx found j
    have output := Blocks.getElem?_flatMap TxV1.encOutputs j found
    have inside : txOutputs * i + j < txOutputs * accepted.length := by
      have bound := (List.getElem?_eq_some_iff.mp output).1
      rwa [Blocks.length_flatMap] at bound
    refine ⟨self.ledger.tree.leaves.length + (txOutputs * i + j), ?_,
      self.ledger.getElem?_leaves_of_accepted devVerifier txs (judged ▸ found) j⟩
    rw [offered, List.getElem?_zip_eq_some]
    refine ⟨output, ?_⟩
    rw [List.getElem?_range' inside, Nat.one_mul]

end Runs

end ShieldedLedger
