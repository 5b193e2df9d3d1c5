import ShieldedLedger.State.Durability
import ShieldedLedger.State.Idle

/-!
# Issuance is a function of the height

The rewards of a checkpoint are computed from its height, the emission parameters
and the validators.  The money issued therefore depends neither on the number of
transactions nor on their verdicts, and a process that crashes and applies some
heights again issues the same notes for them again, and nothing twice.
-/

namespace ShieldedLedger

section Issuance

variable [Blake3]

namespace Ledger

/-- The chain without transactions, some checkpoints later. -/
def idle (self : Ledger) (count : ℕ) : Ledger :=
  (self.run devVerifier (List.replicate count [])).1

theorem idle_succ (self : Ledger) (count : ℕ) :
    self.idle (count + 1) = ((self.idle count).applyCheckpoint devVerifier []).1 := by
  rw [idle, List.replicate_succ', run, Machine.run_append]
  rfl

theorem height_idle (self : Ledger) (count : ℕ) :
    (self.idle count).height = self.height + count :=
  (self.idled_run devVerifier count).height

theorem parameters_idle (self : Ledger) (count : ℕ) :
    (self.idle count).emission = self.emission ∧
      (self.idle count).validators = self.validators := by
  induction count with
  | zero => exact ⟨rfl, rfl⟩
  | succ count ih =>
      rw [idle_succ, applyCheckpoint_emission, applyCheckpoint_validators]
      exact ih

/-- A ledger has issued what the chain without transactions had at its height. -/
structure OnSchedule (start ledger : Ledger) : Prop where
  emission : ledger.emission = start.emission
  validators : ledger.validators = start.validators
  supply : ledger.supply = (start.idle ledger.height).supply

variable {start ledger : Ledger}

/-- The next rewards are those of the chain without transactions. -/
theorem OnSchedule.nextRewards (onSchedule : OnSchedule start ledger) (fresh : start.height = 0) :
    ledger.nextRewards = (start.idle ledger.height).nextRewards := by
  have parameters := start.parameters_idle ledger.height
  have height : (start.idle ledger.height).height = ledger.height := by
    rw [height_idle, fresh, Nat.zero_add]
  rw [Ledger.nextRewards, Ledger.nextRewards, parameters.1, parameters.2, height,
    onSchedule.emission, onSchedule.validators]

/-- Whatever a checkpoint contains, it issues what an empty one would. -/
theorem OnSchedule.applyCheckpoint (onSchedule : OnSchedule start ledger)
    (fresh : start.height = 0) (verifier : SpendVerifier) (batch : List TxV1) :
    OnSchedule start (ledger.applyCheckpoint verifier batch).1 where
  emission := by rw [applyCheckpoint_emission, onSchedule.emission]
  validators := by rw [applyCheckpoint_validators, onSchedule.validators]
  supply := by
    rw [applyCheckpoint_height, idle_succ, applyCheckpoint_supply, applyCheckpoint_supply,
      onSchedule.nextRewards fresh, onSchedule.supply]

end Ledger

variable [Redb]

namespace Process

/-- A restarted process is given the emission parameters and the validators of the chain. -/
def Event.Keeps (start : Ledger) : Event → Prop
  | .crash emission validators _ => emission = start.emission ∧ validators = start.validators
  | _ => True

/-- The ledger in memory and the one that a crash would restore are on schedule. -/
theorem onSchedule_after (lawful : OrderedTables.Lawful) {start : Ledger}
    (fresh : start.height = 0) {process : Process}
    {last : Ledger} (durable : Durable last process) (lastOn : Ledger.OnSchedule start last)
    (ledgerOn : Ledger.OnSchedule start process.ledger) {events : List Event}
    (kept : ∀ event ∈ events, event.Keeps start) :
    Ledger.OnSchedule start (process.after events).ledger := by
  have invariant := Machine.run_invariant step
    (fun process => ∃ last, Durable last process ∧ Ledger.OnSchedule start last ∧
      Ledger.OnSchedule start process.ledger)
    (fun _ event => event.Keeps start) ?_ ⟨last, durable, lastOn, ledgerOn⟩
    (Machine.along_of_forall (fun event member _ => kept event member) _)
  · obtain ⟨-, -, -, onSchedule⟩ := invariant
    exact onSchedule
  · rintro process event ⟨last, durable, lastOn, ledgerOn⟩ keeps
    cases event with
    | checkpoint verifier batch =>
        exact ⟨last, durable.step lawful (by simp), lastOn,
          ledgerOn.applyCheckpoint fresh verifier batch⟩
    | persist => exact ⟨process.ledger, durable.persist lawful, ledgerOn, ledgerOn⟩
    | crash emission validators difficultyBits =>
        obtain ⟨rfl, rfl⟩ := keeps
        refine ⟨last, durable.step lawful (by simp), lastOn, ?_⟩
        rw [durable.step_crash lawful]
        exact ⟨rfl, rfl, lastOn.supply⟩

end Process

/-- Nobody mints by making transactions, and a crash mints nothing again.  In every run of
checkpoints, persists and crashes from a persisted genesis, where restarts keep the emission
parameters and the validators, the supply, the audit and the notes minted next are those of
the chain of the same height without any transaction. -/
theorem issuance_by_height (lawful : OrderedTables.Lawful) (emission : EmissionParams)
    (validators : List ValidatorInfo) (difficultyBits : ℕ)
    (genesisNotes : List (Commitment × UInt64))
    {events : List Process.Event}
    (kept : ∀ event ∈ events,
      event.Keeps (Ledger.genesis emission validators difficultyBits genesisNotes)) :
    let genesis := Ledger.genesis emission validators difficultyBits genesisNotes
    let ledger := (Process.after ⟨genesis, genesis.persist Store.open⟩ events).ledger
    let idle := genesis.idle ledger.height
    ledger.supply = idle.supply ∧
    (∀ genesisSupply, ledger.auditSupply genesisSupply = idle.auditSupply genesisSupply) ∧
    ledger.nextRewards = idle.nextRewards ∧
    ledger.rewardNotes = idle.rewardNotes := by
  intro genesis ledger idle
  have fresh : genesis.height = 0 := rfl
  have start : Ledger.OnSchedule genesis genesis := ⟨rfl, rfl, rfl⟩
  obtain ⟨last, unwritten⟩ := Process.exists_durable lawful genesis []
  have durable : Process.Durable genesis ⟨genesis, genesis.persist Store.open⟩ :=
    unwritten.persist lawful
  have onSchedule : Ledger.OnSchedule genesis ledger :=
    Process.onSchedule_after lawful fresh durable start start kept
  have height : idle.height = ledger.height := by
    rw [Ledger.height_idle, fresh, Nat.zero_add]
  have parameters := genesis.parameters_idle ledger.height
  have rewards : ledger.nextRewards = idle.nextRewards := onSchedule.nextRewards fresh
  refine ⟨onSchedule.supply, fun genesisSupply => ?_, rewards, ?_⟩
  · rw [Ledger.auditSupply, Ledger.auditSupply, height, parameters.1, onSchedule.emission,
      onSchedule.supply]
  · rw [Ledger.rewardNotes, Ledger.rewardNotes, rewards, height, parameters.2,
      onSchedule.validators]

end Issuance

section Samples

open Reference

/-- A checkpoint lost in a crash and applied again with other transactions. -/
theorem issuance_by_height_sample :
    let ledger := (Process.after ⟨sampleLedger, sampleLedger.persist Store.open⟩
      [.checkpoint lenientVerifier [sampleTx], .crash sampleEmission sampleValidators 0,
        .checkpoint lenientVerifier []]).ledger
    ledger.supply = (sampleLedger.idle ledger.height).supply := by
  have kept : ∀ event ∈ [Process.Event.checkpoint lenientVerifier [sampleTx],
      .crash sampleEmission sampleValidators 0, .checkpoint lenientVerifier []],
      event.Keeps sampleLedger :=
    List.forall_mem_cons.mpr ⟨trivial, List.forall_mem_cons.mpr ⟨⟨rfl, rfl⟩,
      List.forall_mem_singleton.mpr trivial⟩⟩
  obtain ⟨supply, -⟩ := issuance_by_height redb_lawful sampleEmission sampleValidators
    0 ([sampleNote].map fun note => (note.commitment, note.value)) kept
  exact supply

end Samples

end ShieldedLedger
