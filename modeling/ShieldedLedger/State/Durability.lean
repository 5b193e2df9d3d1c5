import ShieldedLedger.State.Restart

/-!
# Durability across crashes

A process applies checkpoints in memory, persists to one store, and may crash at
any time and restore itself from that store.  The store is never cleared.  It
always holds the state of the last persist, because leaves are only appended and
nullifiers only added between one persist and the next.
-/

namespace ShieldedLedger

/-- A running ledger and the store it persists to. -/
structure Process [Redb] where
  ledger : Ledger
  store : Store

/-- What happens to a process.  A crash loses the ledger in memory and restores one
from the store, with whatever parameters the restarted process is given. -/
inductive Process.Event where
  | checkpoint (verifier : SpendVerifier) (batch : List TxV1)
  | persist
  | crash (emission : EmissionParams) (validators : List ValidatorInfo) (difficultyBits : ℕ)

section Crashes

variable [Blake3] [Redb]

namespace Process

/-- One event.  A crash reports the restored ledger, or the error that left the process
as it was. -/
def step (self : Process) : Event → Process × Option (Except StoreError Ledger)
  | .checkpoint verifier batch =>
      ({ self with ledger := (self.ledger.applyCheckpoint verifier batch).1 }, none)
  | .persist => ({ self with store := self.ledger.persist self.store }, none)
  | .crash emission validators difficultyBits =>
      match Ledger.restore self.store emission validators difficultyBits with
      | .ok ledger => ({ self with ledger }, some (.ok ledger))
      | .error error => (self, some (.error error))

/-- The process after a sequence of events. -/
def after (self : Process) (events : List Event) : Process := (Machine.run step self events).1

theorem after_append (self : Process) (left right : List Event) :
    self.after (left ++ right) = (self.after left).after right := by
  rw [after, Machine.run_append]
  rfl

theorem after_cons (self : Process) (event : Event) (events : List Event) :
    self.after (event :: events) = (self.step event).1.after events := rfl

/-- The store holds exactly the state of the last persisted ledger, and the ledger in
memory has only grown since. -/
structure Durable (last : Ledger) (process : Process) : Prop where
  holds : process.store.Holds last.tree.leaves last.nullifiers
  height : process.store.height.getD 0 = last.height
  supply : process.store.supply.getD 0 = last.supply
  leaves : last.tree.leaves <+: process.ledger.tree.leaves
  nullifiers : last.nullifiers ⊆ process.ledger.nullifiers

/-- The ledger a restart makes of a persisted one. -/
def reopened (last : Ledger) (emission : EmissionParams) (validators : List ValidatorInfo)
    (difficultyBits : ℕ) : Ledger where
  tree := ⟨last.tree.leaves, [last.currentAnchor]⟩
  nullifiers := last.nullifiers
  quota := QuotaRegistry.new
  height := last.height
  supply := last.supply
  emission := emission
  validators := validators
  difficultyBits := difficultyBits

variable (lawful : OrderedTables.Lawful) {last : Ledger} {process : Process}
include lawful

/-- A crash of a durable process restores the last persisted state. -/
theorem Durable.step_crash (durable : Durable last process) (emission : EmissionParams)
    (validators : List ValidatorInfo) (difficultyBits : ℕ) :
    let restored := reopened last emission validators difficultyBits
    process.step (.crash emission validators difficultyBits) =
      ({ process with ledger := restored }, some (.ok restored)) := by
  intro restored
  have read : Ledger.restore process.store emission validators difficultyBits = .ok restored := by
    rw [Ledger.restore_of_holds lawful durable.holds, durable.height, durable.supply]
    rfl
  rw [Process.step, read]

/-- A persist makes the current ledger the last persisted one. -/
theorem Durable.persist (durable : Durable last process) :
    Durable process.ledger (process.step .persist).1 where
  holds := durable.holds.commitCheckpoint lawful process.ledger.height process.ledger.supply
    durable.leaves durable.nullifiers
  height := rfl
  supply := rfl
  leaves := List.prefix_refl _
  nullifiers := Finset.Subset.refl _

/-- Checkpoints and crashes leave the last persisted state in place. -/
theorem Durable.step (durable : Durable last process) {event : Event}
    (quiet : event ≠ .persist) : Durable last (process.step event).1 := by
  cases event with
  | checkpoint verifier batch =>
      exact {
        holds := durable.holds
        height := durable.height
        supply := durable.supply
        leaves := by
          simp only [Process.step, Ledger.applyCheckpoint_leaves]
          exact durable.leaves.trans (List.prefix_append _ _)
        nullifiers := by
          simp only [Process.step, Ledger.applyCheckpoint_nullifiers]
          exact durable.nullifiers.trans Finset.subset_union_left }
  | persist => exact absurd rfl quiet
  | crash emission validators difficultyBits =>
      rw [durable.step_crash lawful]
      exact {
        holds := durable.holds
        height := durable.height
        supply := durable.supply
        leaves := List.prefix_refl _
        nullifiers := Finset.Subset.refl _ }

/-- Every process that started with an empty store is durable. -/
theorem exists_durable (ledger : Ledger) (events : List Event) :
    ∃ last, Durable last (Process.after ⟨ledger, Store.open⟩ events) := by
  have unwritten : Durable { ledger with
      tree := CommitmentTree.new, nullifiers := ∅, height := 0, supply := 0 }
      ⟨ledger, Store.open⟩ :=
    { holds := Store.holds_open lawful
      height := rfl
      supply := rfl
      leaves := List.nil_prefix
      nullifiers := Finset.empty_subset _ }
  refine Machine.run_invariant step (fun process => ∃ last, Durable last process)
    (fun _ _ => True) ?_ ⟨_, unwritten⟩ (Machine.along_of_forall (fun _ _ _ => trivial) _)
  intro process event kept _
  obtain ⟨last, durable⟩ := kept
  cases event with
  | persist => exact ⟨process.ledger, durable.persist lawful⟩
  | checkpoint verifier batch => exact ⟨last, durable.step lawful (by simp)⟩
  | crash emission validators difficultyBits => exact ⟨last, durable.step lawful (by simp)⟩

/-- Without a persist the last persisted state stays in place. -/
theorem Durable.after (durable : Durable last process) {events : List Event}
    (quiet : Event.persist ∉ events) : Durable last (process.after events) := by
  refine Machine.run_invariant Process.step (Durable last) (fun _ event => event ≠ .persist)
    (fun process event durable other => durable.step lawful other) durable
    (Machine.along_of_forall ?_ _)
  intro event member _ equal
  exact quiet (equal ▸ member)

end Process

/-- Durable state survives crashes exactly.  In every run from a genesis ledger and an
empty store, with checkpoints, persists and crashes in any order, a crash after at
least one persist restores the leaves, root, nullifiers, height and supply that the
ledger had at the last persist. -/
theorem crash_restores_last_persist (lawful : OrderedTables.Lawful) (emission : EmissionParams)
    (validators : List ValidatorInfo) (difficultyBits : ℕ)
    (genesisNotes : List (Commitment × UInt64))
    {events : List Process.Event} (persisted : Process.Event.persist ∈ events)
    (emission' : EmissionParams) (validators' : List ValidatorInfo) (difficultyBits' : ℕ) :
    let start : Process :=
      ⟨Ledger.genesis emission validators difficultyBits genesisNotes, Store.open⟩
    ∃ before since, events = before ++ .persist :: since ∧ .persist ∉ since ∧
      ∃ restored,
        ((start.after events).step (.crash emission' validators' difficultyBits')).2 =
          some (.ok restored) ∧
        restored.tree.leaves = (start.after before).ledger.tree.leaves ∧
        restored.tree.root = (start.after before).ledger.tree.root ∧
        restored.nullifiers = (start.after before).ledger.nullifiers ∧
        restored.height = (start.after before).ledger.height ∧
        restored.supply = (start.after before).ledger.supply := by
  intro start
  obtain ⟨since, before, reversed, quiet⟩ :=
    List.eq_append_cons_of_mem (List.mem_reverse.mpr persisted)
  have split : events = before.reverse ++ .persist :: since.reverse := by
    rw [← List.reverse_reverse events, reversed]
    simp
  have quiet' : Process.Event.persist ∉ since.reverse := by rwa [List.mem_reverse]
  refine ⟨before.reverse, since.reverse, split, quiet', ?_⟩
  obtain ⟨last, earlier⟩ := Process.exists_durable lawful
    (Ledger.genesis emission validators difficultyBits genesisNotes) before.reverse
  have durable : Process.Durable (start.after before.reverse).ledger (start.after events) := by
    rw [split, Process.after_append, Process.after_cons]
    exact (earlier.persist lawful).after lawful quiet'
  refine ⟨Process.reopened (start.after before.reverse).ledger emission' validators'
    difficultyBits', ?_, rfl, rfl, rfl, rfl, rfl⟩
  rw [durable.step_crash lawful]

end Crashes

section Samples

open Reference

/-- The checkpoint after the persist is lost in the crash. -/
theorem crash_restores_last_persist_sample :
    ∃ restored,
      ((Process.after ⟨sampleLedger, Store.open⟩ [.persist, .checkpoint lenientVerifier []]).step
        (.crash sampleEmission sampleValidators 0)).2 = some (.ok restored) ∧
      restored.height = 0 := by
  have persisted : Process.Event.persist ∈ [.persist, .checkpoint lenientVerifier []] :=
    List.mem_cons_self ..
  obtain ⟨before, since, split, -, restored, crashed, -, -, -, height, -⟩ :=
    crash_restores_last_persist redb_lawful sampleEmission sampleValidators 0
      ([sampleNote].map fun note => (note.commitment, note.value)) persisted
      sampleEmission sampleValidators 0
  refine ⟨restored, crashed, ?_⟩
  cases before with
  | nil => exact height
  | cons event before =>
      have rest := (List.cons.inj split).2
      cases before with
      | nil => cases (List.cons.inj rest).1
      | cons event before => simp at rest

end Samples

end ShieldedLedger
