import ShieldedLedger.State.History

/-!
# Replaying the accepted transactions

A rejected transaction changes nothing but the rejected list: whichever check it
fails, neither the staged effects nor the quota registry move.  Applying only
the accepted transactions of a batch therefore gives the same ledger, accepts
all of them and reports the same summary without rejections.
-/

namespace ShieldedLedger

/-- The staged effects of a checkpoint: everything but the rejected list. -/
def Staged.effects (staged : Staged) : Staged := { staged with rejected := [] }

@[simp] theorem Staged.effects_reject (staged : Staged) (i : ℕ) (reason : RejectReason) :
    (staged.reject i reason).effects = staged.effects := rfl

variable [Blake3]

namespace Ledger

variable (self : Ledger) (verifier : SpendVerifier)

omit [Blake3] in
/-- Accepting a transaction moves the effects alike, whatever was rejected before. -/
theorem effects_settle_none {left right : Staged} (same : left.effects = right.effects)
    (i j : ℕ) (tx : TxV1) :
    (settle i tx left none).effects = (settle j tx right none).effects := by
  have moved (staged : Staged) : (settle i tx staged none).effects =
      (settle j tx staged.effects none).effects := rfl
  rw [moved left, same]
  rfl

/-- Equal effects give equal verdicts. -/
theorem verdict_of_effects {left right : Staged} (same : left.effects = right.effects)
    (tx : TxV1) :
    self.verdict verifier left.seenThisCheckpoint left.quota tx =
      self.verdict verifier right.seenThisCheckpoint right.quota tx := by
  have seen : left.effects.seenThisCheckpoint = right.effects.seenThisCheckpoint :=
    congrArg Staged.seenThisCheckpoint same
  have quota : left.effects.quota = right.effects.quota := congrArg Staged.quota same
  simp only [Staged.effects] at seen quota
  rw [seen, quota]

/-- A loop over the accepted transactions ends with the same effects as the loop over
the whole batch, and rejects nothing more. -/
theorem effects_run_acceptedOf (ordered : List TxV1) :
    ∀ left right : ℕ × Staged, left.2.effects = right.2.effects →
      let accepted :=
        acceptedOf (ordered.zip (Machine.run (self.stageStep verifier) left ordered).2)
      let replay := Machine.run (self.stageStep verifier) right accepted
      replay.1.2.effects = (Machine.run (self.stageStep verifier) left ordered).1.2.effects ∧
        replay.1.2.rejected = right.2.rejected := by
  induction ordered with
  | nil =>
      intro left right same
      exact ⟨same.symm, rfl⟩
  | cons tx rest ih =>
      intro left right same
      have alike := self.verdict_of_effects verifier same tx
      simp only [Machine.run_cons, List.zip_cons_cons, acceptedOf, List.filter_cons]
      cases verdict : (self.stageStep verifier left tx).2 with
      | some reason =>
          have staged : (self.stageStep verifier left tx).1.2.effects = right.2.effects := by
            rw [← same]
            simp only [stageStep] at verdict
            simp only [stageStep, stageTx_eq, verdict, settle, Staged.effects_reject]
          exact ih _ _ staged
      | none =>
          have staged : (self.stageStep verifier left tx).1.2.effects =
              (self.stageStep verifier right tx).1.2.effects := by
            simp only [stageStep] at verdict
            simp only [stageStep, stageTx_eq, ← alike, verdict]
            exact effects_settle_none same _ _ tx
          have unrejected : (self.stageStep verifier right tx).1.2.rejected = right.2.rejected := by
            simp only [stageStep] at verdict
            simp only [stageStep, stageTx_eq, ← alike, verdict, settle, Staged.accept]
          have later := ih _ _ staged
          simp only [acceptedOf] at later
          exact ⟨later.1, later.2.trans unrejected⟩

/-- Staging the accepted transactions alone stages the same effects. -/
theorem stageAll_acceptedOf (ordered : List TxV1) :
    self.stageAll verifier (acceptedOf (self.verdicts verifier ordered)) =
      (self.stageAll verifier ordered).effects := by
  have replay := self.effects_run_acceptedOf verifier ordered (0, Staged.init self.quota)
    (0, Staged.init self.quota) rfl
  rw [stageAll, stageAll, stageFrom_eq_run, stageFrom_eq_run, ← replay.1]
  exact congrArg (fun rejected => { (Machine.run (self.stageStep verifier)
    (0, Staged.init self.quota) (acceptedOf (self.verdicts verifier ordered))).1.2 with
      rejected }) replay.2

/-- The ledger after a checkpoint depends on the staged effects only. -/
theorem applyCheckpoint_of_effects {left right : List TxV1}
    (same : (self.stageAll verifier left).effects = (self.stageAll verifier right).effects) :
    (self.applyCheckpoint verifier left).1 = (self.applyCheckpoint verifier right).1 ∧
      (self.applyCheckpoint verifier left).2 =
        { (self.applyCheckpoint verifier right).2 with
          rejected := (self.stageAll verifier left).rejected } := by
  have reads (batch : List TxV1) : self.stageFrom verifier 0 batch (Staged.init self.quota) =
      { (self.stageAll verifier batch).effects with
        rejected := (self.stageAll verifier batch).rejected } := rfl
  simp only [applyCheckpoint, reads, same]
  trivial

end Ledger

/-- Rejected transactions leave no trace: applying only the accepted transactions of
a batch gives the same ledger in every component, and the same summary except that
nothing is rejected; all of them are accepted. -/
theorem rejected_leave_no_trace (self : Ledger) (verifier : SpendVerifier) (batch : List TxV1) :
    let outcome := self.applyCheckpoint verifier batch
    let accepted := acceptedTxs batch outcome.2.rejected
    self.applyCheckpoint verifier accepted = (outcome.1, { outcome.2 with rejected := [] }) ∧
      outcome.2.accepted = accepted.length := by
  intro outcome accepted
  have acceptedEq : accepted = acceptedOf (self.verdicts verifier batch) :=
    self.acceptedTxs_applyCheckpoint verifier batch
  have staged := self.stageAll_acceptedOf verifier batch
  have same : (self.stageAll verifier accepted).effects =
      (self.stageAll verifier batch).effects := by
    rw [acceptedEq, staged]
    rfl
  have replay := self.applyCheckpoint_of_effects verifier same
  have unrejected : (self.stageAll verifier accepted).rejected = [] := by
    rw [acceptedEq, staged]
    rfl
  constructor
  · rw [unrejected] at replay
    exact Prod.ext replay.1 replay.2
  · exact (self.recorded_applyCheckpoint verifier batch).accepted

end ShieldedLedger
