import ShieldedLedger.State.Checkpoint
import ShieldedLedger.Tree.Window

/-!
# Anchors of reachable ledgers

Sealing happens at increasing heights, so evicting from the front is filtering
by the validity window, and the newest anchor is the current root.
-/

namespace ShieldedLedger

variable [Blake3]

/-- The anchors end with the current one, increase in height and lie in the window. -/
structure WellSealed (ledger : Ledger) : Prop where
  current : ∃ older, ledger.tree.anchors = older ++ [ledger.currentAnchor]
  increasing : ledger.tree.anchors.Pairwise fun left right => left.height < right.height
  recent : ∀ anchor ∈ ledger.tree.anchors, ledger.height - anchor.height < anchorWindow

theorem WellSealed.height_le {ledger : Ledger} (wellSealed : WellSealed ledger) {anchor : Anchor}
    (member : anchor ∈ ledger.tree.anchors) : anchor.height ≤ ledger.height := by
  obtain ⟨older, anchors⟩ := wellSealed.current
  have increasing := wellSealed.increasing
  rw [anchors] at member increasing
  rcases List.mem_append.mp member with earlier | last
  · exact ((List.pairwise_append.mp increasing).2.2 anchor earlier _
      (List.mem_singleton_self _)).le
  · rw [List.mem_singleton.mp last]
    exact le_refl _

namespace Ledger

/-- After a checkpoint the anchors are those still in the window, and the new one. -/
theorem applyCheckpoint_anchors_of_wellSealed {self : Ledger} (wellSealed : WellSealed self)
    (verifier : SpendVerifier) (batch : List TxV1) :
    (self.applyCheckpoint verifier batch).1.tree.anchors =
      self.tree.anchors.filter (fun anchor =>
        decide (self.height + 1 - anchor.height < anchorWindow)) ++
        [(self.applyCheckpoint verifier batch).1.currentAnchor] := by
  have increasing : (self.tree.anchors ++
      [(self.applyCheckpoint verifier batch).1.currentAnchor]).Pairwise
        fun left right => left.height < right.height := by
    refine List.pairwise_append.mpr ⟨wellSealed.increasing, List.pairwise_singleton _ _, ?_⟩
    intro anchor member last equal
    rw [List.mem_singleton.mp equal]
    exact Nat.lt_succ_of_le (wellSealed.height_le member)
  rw [applyCheckpoint_anchors, evict_eq_filter increasing, List.filter_append]
  simp [currentAnchor, anchorWindow]

theorem wellSealed_applyCheckpoint {self : Ledger} (wellSealed : WellSealed self)
    (verifier : SpendVerifier) (batch : List TxV1) :
    WellSealed (self.applyCheckpoint verifier batch).1 := by
  have anchors := self.applyCheckpoint_anchors_of_wellSealed wellSealed verifier batch
  refine ⟨⟨_, anchors⟩, ?_, ?_⟩
  · rw [anchors]
    refine List.pairwise_append.mpr
      ⟨wellSealed.increasing.sublist (List.filter_sublist ..), List.pairwise_singleton _ _, ?_⟩
    intro anchor member last equal
    rw [List.mem_singleton.mp equal]
    exact Nat.lt_succ_of_le (wellSealed.height_le (List.mem_of_mem_filter member))
  · intro anchor member
    rw [anchors] at member
    rcases List.mem_append.mp member with earlier | last
    · simpa using (List.mem_filter.mp earlier).2
    · rw [List.mem_singleton.mp last]
      simp [currentAnchor, anchorWindow]

theorem wellSealed_genesis (emission : EmissionParams) (validators : List ValidatorInfo)
    (difficultyBits : ℕ) (genesisNotes : List (Commitment × UInt64)) :
    WellSealed (genesis emission validators difficultyBits genesisNotes) := by
  rw [genesis_eq]
  exact ⟨⟨[], rfl⟩, List.pairwise_singleton _ _, by simp [anchorWindow]⟩

theorem wellSealed_run {self : Ledger} (wellSealed : WellSealed self) (verifier : SpendVerifier)
    (batches : List (List TxV1)) : WellSealed (self.run verifier batches).1 :=
  Machine.run_invariant (fun (ledger : Ledger) batch => ledger.applyCheckpoint verifier batch)
    WellSealed (fun _ _ => True)
    (fun _ batch wellSealed _ => wellSealed_applyCheckpoint wellSealed verifier batch) wellSealed
    (Machine.along_of_forall (fun _ _ _ => trivial) _)

end Ledger

end ShieldedLedger
