import ShieldedLedger.State.Checkpoint

/-!
# Statelessly invalid transactions

A transaction that fails stateless validation is rejected without a trace: the
later transactions are judged, and the accepted ones staged, as if it had not
been there.
-/

namespace ShieldedLedger

/-- Loop positions that judge every transaction alike. -/
structure JudgeAlike (left right : ℕ × Staged) : Prop where
  seen : left.2.seenThisCheckpoint = right.2.seenThisCheckpoint
  quota : left.2.quota = right.2.quota

variable [Blake3]

namespace Ledger

variable (self : Ledger) (verifier : SpendVerifier)

theorem verdict_ne_none_of_invalid {tx : TxV1} (seen : Finset Nullifier) (quota : QuotaRegistry)
    (invalid : validateStateless tx verifier self.difficultyBits ≠ .ok ()) :
    self.verdict verifier seen quota tx ≠ none := by
  intro accepted
  exact invalid ((self.verdict_eq_none_iff ..).mp accepted).valid

theorem judgeAlike_of_rejected {left right : ℕ × Staged} (alike : JudgeAlike left right) {tx : TxV1}
    (rejected : self.verdict verifier left.2.seenThisCheckpoint left.2.quota tx ≠ none) :
    JudgeAlike (self.stageStep verifier left tx).1 right := by
  obtain ⟨reason, verdictEq⟩ := Option.ne_none_iff_exists'.mp rejected
  simp only [stageStep, stageTx_eq, verdictEq]
  exact ⟨alike.seen, alike.quota⟩

/-- Positions that judge alike still do after one transaction, judged alike. -/
theorem judgeAlike_stageStep {left right : ℕ × Staged} (alike : JudgeAlike left right) (tx : TxV1) :
    (self.stageStep verifier left tx).2 = (self.stageStep verifier right tx).2 ∧
      JudgeAlike (self.stageStep verifier left tx).1 (self.stageStep verifier right tx).1 := by
  have same : self.verdict verifier left.2.seenThisCheckpoint left.2.quota tx =
      self.verdict verifier right.2.seenThisCheckpoint right.2.quota tx := by
    rw [alike.seen, alike.quota]
  refine ⟨same, ?_⟩
  simp only [stageStep, stageTx_eq, same]
  cases self.verdict verifier right.2.seenThisCheckpoint right.2.quota tx with
  | some reason => exact ⟨alike.seen, alike.quota⟩
  | none =>
      constructor
      · simp only [settle, Staged.accept, alike.seen]
      · simp only [settle, Staged.accept, alike.quota]

/-- Whether a transaction passes stateless validation in this ledger. -/
def valid (self : Ledger) (verifier : SpendVerifier) (tx : TxV1) : Bool :=
  decide (validateStateless tx verifier self.difficultyBits = .ok ())

/-- The accepted transactions are those of the valid part of the batch. -/
theorem acceptedOf_run_filter (ordered : List TxV1) :
    ∀ {left right : ℕ × Staged}, JudgeAlike left right →
      acceptedOf (ordered.zip (Machine.run (self.stageStep verifier) left ordered).2) =
        acceptedOf ((ordered.filter (self.valid verifier)).zip
          (Machine.run (self.stageStep verifier) right
            (ordered.filter (self.valid verifier))).2) := by
  induction ordered with
  | nil => exact fun _ => rfl
  | cons tx rest ih =>
      intro left right alike
      by_cases valid : validateStateless tx verifier self.difficultyBits = .ok ()
      · obtain ⟨same, next⟩ := self.judgeAlike_stageStep verifier alike tx
        rw [List.filter_cons_of_pos (by simpa [Ledger.valid] using valid)]
        simp only [Machine.run_cons, List.zip_cons_cons, acceptedOf, List.filter_cons, same]
        have rest := ih next
        simp only [acceptedOf] at rest
        split
        · simp only [List.map_cons, rest]
        · exact rest
      · have rejected := self.verdict_ne_none_of_invalid verifier
          left.2.seenThisCheckpoint left.2.quota valid
        rw [List.filter_cons_of_neg (by simpa [Ledger.valid] using valid),
          ← ih (self.judgeAlike_of_rejected verifier alike rejected)]
        simp [acceptedOf, stageStep, rejected]

theorem acceptedOf_verdicts_filter (ordered : List TxV1) :
    acceptedOf (self.verdicts verifier ordered) =
      acceptedOf (self.verdicts verifier (ordered.filter (self.valid verifier))) :=
  self.acceptedOf_run_filter verifier ordered ⟨rfl, rfl⟩

/-- After invalid transactions only, a transaction is judged as the first one. -/
theorem getElem?_verdicts_of_invalid {earlier : List TxV1} (later : List TxV1) (tx : TxV1)
    (invalid : ∀ other ∈ earlier, validateStateless other verifier self.difficultyBits ≠ .ok ()) :
    (self.verdicts verifier (earlier ++ tx :: later))[earlier.length]? =
      some (tx, self.verdict verifier ∅ self.quota tx) := by
  have alike : JudgeAlike
      (Machine.run (self.stageStep verifier) (0, Staged.init self.quota) earlier).1
      (0, Staged.init self.quota) := by
    refine Machine.run_invariant (self.stageStep verifier)
      (fun position => JudgeAlike position (0, Staged.init self.quota)) _ ?_ ⟨rfl, rfl⟩
      (Machine.along_of_forall (fun other member _ => invalid other member) _)
    exact fun position other alike invalid => self.judgeAlike_of_rejected verifier alike
      (self.verdict_ne_none_of_invalid verifier _ _ invalid)
  rw [verdicts, Machine.run_append, Machine.run_cons,
    List.zip_append (Machine.length_outputs _ _).symm,
    List.getElem?_append_right (by simp), List.zip_cons_cons]
  simp only [stageStep, alike.seen, alike.quota, List.length_zip, Machine.length_outputs,
    min_self, Nat.sub_self, List.getElem?_cons_zero]
  rfl

/-- Batches with the same accepted transactions leave the same leaves. -/
theorem applyCheckpoint_leaves_of_accepted {left right : List TxV1}
    (same : acceptedOf (self.verdicts verifier left) = acceptedOf (self.verdicts verifier right)) :
    (self.applyCheckpoint verifier left).1.tree.leaves =
      (self.applyCheckpoint verifier right).1.tree.leaves := by
  rw [applyCheckpoint_leaves, applyCheckpoint_leaves,
    (self.tracks_stageAll verifier left).commitments,
    (self.tracks_stageAll verifier right).commitments, same]

end Ledger

end ShieldedLedger
