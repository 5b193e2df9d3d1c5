import ShieldedLedger.State.History
import ShieldedLedger.State.Restart

/-!
# Contention between transactions

Two transactions of one batch contend when they share a nullifier or a quota
slot.  The verdict of a transaction is the one it gets alone, unless an earlier
accepted transaction contends with it; then it is rejected.  Without contention
the order of a batch does not matter.
-/

namespace ShieldedLedger

/-- The quota slot an anti-spam body uses, if it is on the quota lane. -/
def AntiSpam.slot : AntiSpam → Option (ℕ × Bytes32)
  | .pow _ => none
  | .quota rp => some (rp.epoch, rp.rateNullifier)

/-- The transactions share a nullifier or a quota slot. -/
def Contends (left right : TxV1) : Prop :=
  (∃ nf ∈ left.nullifiers.toList, nf ∈ right.nullifiers.toList) ∨
    ∃ slot, left.antispam.slot = some slot ∧ right.antispam.slot = some slot

theorem Contends.symm {left right : TxV1} (contends : Contends left right) :
    Contends right left := by
  cases contends with
  | inl nullifier =>
      obtain ⟨nf, leftMem, rightMem⟩ := nullifier
      exact .inl ⟨nf, rightMem, leftMem⟩
  | inr used =>
      obtain ⟨slot, leftSlot, rightSlot⟩ := used
      exact .inr ⟨slot, rightSlot, leftSlot⟩

/-- The reason reported for an index of the batch; none for an accepted one. -/
def CheckpointSummary.verdictAt (summary : CheckpointSummary) (i : ℕ) : Option RejectReason :=
  summary.rejected.lookup i

/-- The registry has a slot taken exactly when it had before, or the body uses it. -/
theorem QuotaRegistry.isSome_seen_register_iff (registry : QuotaRegistry) (antispam : AntiSpam)
    (slot : ℕ × Bytes32) :
    ((registry.register antispam).seen slot).isSome = true ↔
      (registry.seen slot).isSome = true ∨ antispam.slot = some slot := by
  cases antispam with
  | pow solution => simp [register, AntiSpam.slot]
  | quota rp =>
      rw [register, seen_admitProof]
      by_cases used : slot = (rp.epoch, rp.rateNullifier)
      · simp [AntiSpam.slot, used]
      · simp [AntiSpam.slot, used, Ne.symm used]

/-- Looking an index up in the rejected list gives the verdict at that index. -/
theorem lookup_rejectedOf {entries : List (TxV1 × Option RejectReason)} {i : ℕ} {tx : TxV1}
    {verdict : Option RejectReason} (found : entries[i]? = some (tx, verdict)) :
    (rejectedOf entries).lookup i = verdict := by
  have listed (reason : RejectReason) :
      (i, reason) ∈ rejectedOf entries ↔ verdict = some reason := by
    rw [mem_rejectedOf, found]
    simp
  cases looked : (rejectedOf entries).lookup i with
  | some reason =>
      obtain ⟨before, after, split, -⟩ := List.lookup_eq_some_iff.mp looked
      have member : (i, reason) ∈ rejectedOf entries := by
        rw [split]
        exact List.mem_append_right _ (List.mem_cons_self ..)
      exact ((listed reason).mp member).symm
  | none =>
      cases verdict with
      | none => rfl
      | some reason =>
          have apart := List.lookup_eq_none_iff.mp looked _ ((listed reason).mpr rfl)
          simp at apart

/-- The quota slots used by transactions, in order. -/
def slotsOf (txs : List TxV1) : List (ℕ × Bytes32) := txs.filterMap fun tx => tx.antispam.slot

@[simp] theorem slotsOf_append (left right : List TxV1) :
    slotsOf (left ++ right) = slotsOf left ++ slotsOf right :=
  List.filterMap_append ..

theorem mem_slotsOf {txs : List TxV1} {slot : ℕ × Bytes32} :
    slot ∈ slotsOf txs ↔ ∃ tx ∈ txs, tx.antispam.slot = some slot :=
  List.mem_filterMap

theorem mem_slotsOf_singleton {tx : TxV1} {slot : ℕ × Bytes32} :
    slot ∈ slotsOf [tx] ↔ tx.antispam.slot = some slot := by
  simp [mem_slotsOf]

theorem nodup_slotsOf_singleton (tx : TxV1) : (slotsOf [tx]).Nodup := by
  cases used : tx.antispam.slot <;> simp [slotsOf, used]

section Verdicts

variable [Blake3]

namespace Ledger

variable (self : Ledger) (verifier : SpendVerifier)

/-! ## The verdict at an index -/

/-- A transaction is judged by what the transactions before it have staged. -/
theorem getElem?_verdicts {batch : List TxV1} {i : ℕ} {tx : TxV1} (found : batch[i]? = some tx) :
    (self.verdicts verifier batch)[i]? =
      some (tx, self.verdict verifier
        (self.stageAll verifier (batch.take i)).seenThisCheckpoint
        (self.stageAll verifier (batch.take i)).quota tx) := by
  obtain ⟨inside, at_i⟩ := List.getElem?_eq_some_iff.mp found
  have split : batch = batch.take i ++ tx :: batch.drop (i + 1) := by
    rw [← at_i, List.cons_getElem_drop_succ, List.take_append_drop]
  have lengthEq : (batch.take i).length = i := List.length_take_of_le inside.le
  have staged := self.stageFrom_eq_run verifier (batch.take i) 0 (Staged.init self.quota)
  rw [stageAll, staged]
  conv_lhs => rw [split]
  rw [verdicts, Machine.run_append, Machine.run_cons,
    List.zip_append (Machine.length_outputs _ _).symm, List.zip_cons_cons,
    List.getElem?_append_right (by simp [lengthEq]), List.length_zip, Machine.length_outputs,
    min_self, lengthEq, Nat.sub_self, List.getElem?_cons_zero]
  rfl

theorem verdictAt_applyCheckpoint {batch : List TxV1} {i : ℕ} {tx : TxV1}
    (found : batch[i]? = some tx) :
    (self.applyCheckpoint verifier batch).2.verdictAt i =
      self.verdict verifier (self.stageAll verifier (batch.take i)).seenThisCheckpoint
        (self.stageAll verifier (batch.take i)).quota tx := by
  rw [CheckpointSummary.verdictAt, applyCheckpoint_summary_rejected,
    (self.tracks_stageAll verifier batch).rejected]
  exact lookup_rejectedOf (self.getElem?_verdicts verifier found)

/-- The registry has taken the slots of the accepted transactions, which were free. -/
structure SlotsTracked (ledger : Ledger) (entries : List (TxV1 × Option RejectReason))
    (position : ℕ × Staged) : Prop where
  taken : ∀ slot, (position.2.quota.seen slot).isSome = true ↔
    (ledger.quota.seen slot).isSome = true ∨ slot ∈ slotsOf (acceptedOf entries)
  nodup : (slotsOf (acceptedOf entries)).Nodup
  free : ∀ slot ∈ slotsOf (acceptedOf entries), ledger.quota.seen slot = none

omit [Blake3] in
/-- A used slot closes the lane. -/
theorem free_of_laneOpen {quota : QuotaRegistry} {antispam : AntiSpam} {slot : ℕ × Bytes32}
    (lane : self.laneOpen quota antispam = true) (used : antispam.slot = some slot) :
    slot.1 = (self.height + 1) / epochLength ∧ quota.seen slot = none := by
  cases antispam with
  | pow solution => cases used
  | quota rp =>
      obtain rfl := Option.some.inj used
      rw [laneOpen, Bool.and_eq_true, beq_iff_eq, Option.isNone_iff_eq_none] at lane
      exact lane

theorem slotsTracked_stageStep (entries : List (TxV1 × Option RejectReason))
    (position : ℕ × Staged) (tx : TxV1) (tracked : SlotsTracked self entries position) :
    SlotsTracked self (entries ++ [(tx, (self.stageStep verifier position tx).2)])
      (self.stageStep verifier position tx).1 := by
  simp only [stageStep, stageTx_eq]
  cases verdictEq : self.verdict verifier position.2.seenThisCheckpoint position.2.quota tx with
  | some reason =>
      exact {
        taken := by simpa [settle, Staged.reject] using tracked.taken
        nodup := by simpa using tracked.nodup
        free := by simpa using tracked.free }
  | none =>
      have lane := ((self.verdict_eq_none_iff ..).mp verdictEq).lane
      have unused (slot : ℕ × Bytes32) (used : tx.antispam.slot = some slot) :
          self.quota.seen slot = none ∧ slot ∉ slotsOf (acceptedOf entries) := by
        have free := (self.free_of_laneOpen lane used).2
        have untaken := (tracked.taken slot).not.mp (by simp [free])
        simpa using untaken
      exact {
        taken := by
          intro slot
          simp only [settle, Staged.accept, QuotaRegistry.isSome_seen_register_iff,
            tracked.taken slot, acceptedOf_append_none, slotsOf_append, List.mem_append, or_assoc,
            mem_slotsOf_singleton]
        nodup := by
          rw [acceptedOf_append_none, slotsOf_append, List.nodup_append]
          refine ⟨tracked.nodup, nodup_slotsOf_singleton tx, ?_⟩
          intro slot earlier other added equal
          exact (unused other (mem_slotsOf_singleton.mp added)).2 (equal ▸ earlier)
        free := by
          intro slot member
          rw [acceptedOf_append_none, slotsOf_append, List.mem_append] at member
          cases member with
          | inl earlier => exact tracked.free slot earlier
          | inr added => exact (unused slot (mem_slotsOf_singleton.mp added)).1 }

theorem slotsTracked_stageAll (batch : List TxV1) :
    SlotsTracked self (self.verdicts verifier batch)
      (batch.length, self.stageAll verifier batch) := by
  have initial : SlotsTracked self [] (0, Staged.init self.quota) :=
    ⟨by simp [acceptedOf, slotsOf, Staged.init], List.nodup_nil, by simp [acceptedOf, slotsOf]⟩
  have tracked := Machine.run_history (self.stageStep verifier) (SlotsTracked self)
    (self.slotsTracked_stageStep verifier) initial batch
  rw [List.nil_append] at tracked
  rw [stageAll, stageFrom_eq_run]
  exact { tracked with }

/-- The accepted transactions before an index, found by their reported verdicts. -/
theorem mem_acceptedOf_take {batch : List TxV1} {i : ℕ} {other : TxV1} :
    other ∈ acceptedOf (self.verdicts verifier (batch.take i)) ↔
      ∃ j < i, batch[j]? = some other ∧
        (self.applyCheckpoint verifier batch).2.verdictAt j = none := by
  have earlier {j : ℕ} (found : (batch.take i)[j]? = some other) :
      j < i ∧ batch[j]? = some other := by
    rw [List.getElem?_take] at found
    split at found
    · exact ⟨‹_›, found⟩
    · cases found
  rw [mem_acceptedOf, List.mem_iff_getElem?]
  constructor
  · rintro ⟨j, at_j⟩
    have found : (batch.take i)[j]? = some other := by
      rw [← self.map_fst_verdicts verifier (batch.take i), List.getElem?_map, at_j]
      rfl
    obtain ⟨below, inBatch⟩ := earlier found
    refine ⟨j, below, inBatch, ?_⟩
    rw [self.getElem?_verdicts verifier found, List.take_take, min_eq_left below.le] at at_j
    rw [self.verdictAt_applyCheckpoint verifier inBatch]
    exact (Prod.mk.inj (Option.some.inj at_j)).2
  · rintro ⟨j, below, inBatch, accepted⟩
    have found : (batch.take i)[j]? = some other := by
      rw [List.getElem?_take_of_lt below]
      exact inBatch
    refine ⟨j, ?_⟩
    rw [self.getElem?_verdicts verifier found, List.take_take, min_eq_left below.le,
      ← self.verdictAt_applyCheckpoint verifier inBatch, accepted]

/-! ## Contention -/

/-- A transaction that contends with an accepted one before it is rejected. -/
theorem verdict_ne_none_of_contends {earlier : List TxV1} {other tx : TxV1}
    (accepted : other ∈ acceptedOf (self.verdicts verifier earlier))
    (contends : Contends other tx) :
    self.verdict verifier (self.stageAll verifier earlier).seenThisCheckpoint
      (self.stageAll verifier earlier).quota tx ≠ none := by
  intro none
  have acceptable := (self.verdict_eq_none_iff ..).mp none
  cases contends with
  | inl nullifier =>
      obtain ⟨nf, otherMem, txMem⟩ := nullifier
      apply acceptable.fresh
      refine ⟨nf, txMem, .inr ?_⟩
      rw [(self.tracks_stageAll verifier earlier).seen, List.mem_toFinset]
      exact List.mem_flatMap.mpr ⟨other, accepted, otherMem⟩
  | inr used =>
      obtain ⟨slot, otherSlot, txSlot⟩ := used
      have taken := ((self.slotsTracked_stageAll verifier earlier).taken slot).mpr
        (.inr (mem_slotsOf.mpr ⟨other, accepted, otherSlot⟩))
      rw [(self.free_of_laneOpen acceptable.lane txSlot).2] at taken
      cases taken

/-- Without contention with an accepted transaction before it, a transaction is judged
as if it were alone. -/
theorem verdict_of_not_contends {earlier : List TxV1} {tx : TxV1}
    (apart : ∀ other ∈ acceptedOf (self.verdicts verifier earlier), ¬Contends other tx) :
    self.verdict verifier (self.stageAll verifier earlier).seenThisCheckpoint
        (self.stageAll verifier earlier).quota tx =
      self.verdict verifier ∅ self.quota tx := by
  have conflicts : self.Conflicts (self.stageAll verifier earlier).seenThisCheckpoint tx ↔
      self.Conflicts ∅ tx := by
    rw [(self.tracks_stageAll verifier earlier).seen, conflicts_empty_iff]
    constructor
    · rintro ⟨nf, member, spent | staged⟩
      · exact ⟨nf, member, spent⟩
      · obtain ⟨other, accepted, otherMem⟩ := List.mem_flatMap.mp (List.mem_toFinset.mp staged)
        exact absurd (.inl ⟨nf, otherMem, member⟩) (apart other accepted)
    · rintro ⟨nf, member, spent⟩
      exact ⟨nf, member, .inl spent⟩
  have lanes : self.laneOpen (self.stageAll verifier earlier).quota tx.antispam =
      self.laneOpen self.quota tx.antispam := by
    cases antispam : tx.antispam with
    | pow solution => rfl
    | quota rp =>
        have same : ((self.stageAll verifier earlier).quota.seen
            (rp.epoch, rp.rateNullifier)).isSome =
              (self.quota.seen (rp.epoch, rp.rateNullifier)).isSome := by
          rw [Bool.eq_iff_iff, (self.slotsTracked_stageAll verifier earlier).taken]
          apply or_iff_left
          intro used
          obtain ⟨other, accepted, otherSlot⟩ := mem_slotsOf.mp used
          refine apart other accepted (.inr ⟨_, otherSlot, ?_⟩)
          rw [antispam]
          rfl
        rw [laneOpen, laneOpen, ← Option.not_isSome, ← Option.not_isSome, same]
  simp only [verdict, conflicts, lanes]

/-- In a batch without contention exactly the transactions acceptable alone are
accepted. -/
theorem acceptedOf_verdicts_of_pairwise {batch : List TxV1}
    (apart : batch.Pairwise fun left right => ¬Contends left right) :
    acceptedOf (self.verdicts verifier batch) =
      batch.filter fun tx => (self.verdict verifier ∅ self.quota tx).isNone := by
  have alone : self.verdicts verifier batch =
      batch.map fun tx => (tx, self.verdict verifier ∅ self.quota tx) := by
    apply List.ext_getElem?
    intro i
    cases found : batch[i]? with
    | none =>
        have outside := List.getElem?_eq_none_iff.mp found
        rw [List.getElem?_eq_none_iff.mpr (by rwa [length_verdicts]), List.getElem?_map, found]
        rfl
    | some tx =>
        rw [self.getElem?_verdicts verifier found, List.getElem?_map, found,
          self.verdict_of_not_contends verifier]
        · rfl
        · intro other accepted
          have member : other ∈ batch.take i := by
            have listed := List.mem_map_of_mem (f := Prod.fst) (mem_acceptedOf.mp accepted)
            rwa [map_fst_verdicts] at listed
          obtain ⟨inside, at_i⟩ := List.getElem?_eq_some_iff.mp found
          rw [← List.take_append_drop i batch] at apart
          refine (List.pairwise_append.mp apart).2.2 other member tx ?_
          rw [← at_i, List.drop_eq_getElem_cons inside]
          exact List.mem_cons_self ..
  rw [alone, acceptedOf, List.filter_map, List.map_map]
  exact List.map_id _

/-- The verdict of a transaction applied alone. -/
theorem verdictAt_alone (tx : TxV1) :
    (self.applyCheckpoint verifier [tx]).2.verdictAt 0 =
      self.verdict verifier ∅ self.quota tx := by
  have first : [tx][0]? = some tx := rfl
  exact self.verdictAt_applyCheckpoint verifier first

/-- An earlier accepted transaction of the summary is one staged before the index. -/
theorem contended_iff {batch : List TxV1} {i : ℕ} {tx : TxV1} :
    (∃ j < i, ∃ other, batch[j]? = some other ∧
      (self.applyCheckpoint verifier batch).2.verdictAt j = none ∧ Contends other tx) ↔
        ∃ other ∈ acceptedOf (self.verdicts verifier (batch.take i)), Contends other tx := by
  simp only [self.mem_acceptedOf_take verifier]
  constructor
  · rintro ⟨j, below, other, inBatch, accepted, contends⟩
    exact ⟨other, ⟨j, below, inBatch, accepted⟩, contends⟩
  · rintro ⟨other, ⟨j, below, inBatch, accepted⟩, contends⟩
    exact ⟨j, below, other, inBatch, accepted, contends⟩

/-! ## Standing -/

/-- A transaction that passes every check on its own: the anchor is in the window, the
stateless checks pass, no nullifier is spent, and a slot of the quota lane is for the coming
checkpoint's epoch and free. -/
structure Admissible (ledger : Ledger) (verifier : SpendVerifier) (tx : TxV1) : Prop where
  anchored : ledger.anchorValid tx.anchor = true
  valid : validateStateless tx verifier ledger.difficultyBits = .ok ()
  unspent : ∀ nf ∈ tx.nullifiers.toList, ledger.nullifierSeen nf = false
  lane : ∀ slot, tx.antispam.slot = some slot →
    slot.1 = (ledger.height + 1) / epochLength ∧ ledger.quota.seen slot = none

/-- The verdict alone is the one of the checks. -/
theorem verdict_alone_eq_none_iff {tx : TxV1} :
    self.verdict verifier ∅ self.quota tx = none ↔ self.Admissible verifier tx := by
  rw [verdict_eq_none_iff]
  constructor
  · intro acceptable
    have fresh := (self.conflicts_empty_iff tx).not.mp acceptable.fresh
    exact {
      anchored := by simpa [anchorValid] using acceptable.anchor
      valid := acceptable.valid
      unspent := fun nf named => decide_eq_false fun spent => fresh ⟨nf, named, spent⟩
      lane := fun slot used => self.free_of_laneOpen acceptable.lane used }
  · intro admissible
    refine ⟨by simpa [anchorValid] using admissible.anchored, admissible.valid, ?_, ?_⟩
    · rw [conflicts_empty_iff]
      rintro ⟨nf, named, spent⟩
      exact of_decide_eq_false (admissible.unspent nf named) spent
    · cases antispam : tx.antispam with
      | pow solution => rfl
      | quota rp =>
          obtain ⟨epoch, free⟩ := admissible.lane (rp.epoch, rp.rateNullifier) (by
            rw [antispam]
            rfl)
          rw [laneOpen, Bool.and_eq_true, beq_iff_eq, Option.isNone_iff_eq_none]
          exact ⟨epoch, free⟩

/-- After others of its batch, a transaction is accepted when it is admissible and contends
with none of them that was accepted. -/
theorem verdict_after_eq_none_iff {earlier : List TxV1} {tx : TxV1} :
    self.verdict verifier (self.stageAll verifier earlier).seenThisCheckpoint
        (self.stageAll verifier earlier).quota tx = none ↔
      self.Admissible verifier tx ∧
        ∀ other ∈ acceptedOf (self.verdicts verifier earlier), ¬Contends other tx := by
  rw [← verdict_alone_eq_none_iff]
  constructor
  · intro accepted
    have apart : ∀ other ∈ acceptedOf (self.verdicts verifier earlier), ¬Contends other tx :=
      fun other member contends =>
        self.verdict_ne_none_of_contends verifier member contends accepted
    exact ⟨(self.verdict_of_not_contends verifier apart).symm.trans accepted, apart⟩
  · rintro ⟨alone, apart⟩
    exact (self.verdict_of_not_contends verifier apart).trans alone

/-- A transaction of a batch stands when it is admissible and no standing one before it
contends with it.  This compares the transactions of the batch with the ledger before it, and
with each other. -/
def Stands (ledger : Ledger) (verifier : SpendVerifier) (batch : List TxV1) (i : ℕ) : Prop :=
  ∃ tx, batch[i]? = some tx ∧ ledger.Admissible verifier tx ∧
    ∀ j, (_ : j < i) → Stands ledger verifier batch j →
      ∀ other, batch[j]? = some other → ¬Contends other tx
termination_by i

/-- What stands is what the checkpoint accepts. -/
theorem stands_iff {batch : List TxV1} {i : ℕ} {tx : TxV1} (found : batch[i]? = some tx) :
    self.Stands verifier batch i ↔
      (self.applyCheckpoint verifier batch).2.verdictAt i = none := by
  -- by strong induction: what stands before the index is what was accepted before it
  induction i using Nat.strong_induction_on generalizing tx with
  | h i ih =>
      have earlier : (∀ j, j < i → self.Stands verifier batch j →
            ∀ other, batch[j]? = some other → ¬Contends other tx) ↔
          ∀ other ∈ acceptedOf (self.verdicts verifier (batch.take i)), ¬Contends other tx := by
        simp only [self.mem_acceptedOf_take verifier]
        constructor
        · rintro apart other ⟨j, below, at_j, accepted⟩
          exact apart j below ((ih j below at_j).mpr accepted) other at_j
        · intro apart j below stands other at_j
          exact apart other ⟨j, below, at_j, (ih j below at_j).mp stands⟩
      rw [self.verdictAt_applyCheckpoint verifier found, verdict_after_eq_none_iff, ← earlier,
        Stands]
      constructor
      · rintro ⟨tx', found', stands⟩
        obtain rfl := Option.some.inj (found.symm.trans found')
        exact stands
      · exact fun stands => ⟨tx, found, stands⟩

/-- The accepted transactions are the standing ones. -/
theorem mem_acceptedOf_iff_stands {batch : List TxV1} {tx : TxV1} :
    tx ∈ acceptedOf (self.verdicts verifier batch) ↔
      ∃ i, batch[i]? = some tx ∧ self.Stands verifier batch i := by
  have accepted : tx ∈ acceptedOf (self.verdicts verifier (batch.take batch.length)) ↔ _ :=
    self.mem_acceptedOf_take verifier
  rw [List.take_length] at accepted
  rw [accepted]
  constructor
  · rintro ⟨i, -, found, verdict⟩
    exact ⟨i, found, (self.stands_iff verifier found).mpr verdict⟩
  · rintro ⟨i, found, stands⟩
    exact ⟨i, (List.getElem?_eq_some_iff.mp found).1, found,
      (self.stands_iff verifier found).mp stands⟩

/-- The nullifiers of the accepted transactions are those that standing ones name. -/
theorem mem_nullifiersOf_acceptedOf {batch : List TxV1} {nf : Nullifier} :
    nf ∈ nullifiersOf (acceptedOf (self.verdicts verifier batch)) ↔
      ∃ i tx, batch[i]? = some tx ∧ nf ∈ tx.nullifiers.toList ∧ self.Stands verifier batch i := by
  simp only [nullifiersOf, List.mem_flatMap, self.mem_acceptedOf_iff_stands]
  constructor
  · rintro ⟨tx, ⟨i, found, stands⟩, names⟩
    exact ⟨i, tx, found, names, stands⟩
  · rintro ⟨i, tx, found, names, stands⟩
    exact ⟨tx, ⟨i, found, stands⟩, names⟩

/-- Without contention, reordering a batch reorders its accepted transactions. -/
theorem accepted_perm_of_pairwise {batch reordered : List TxV1}
    (apart : batch.Pairwise fun left right => ¬Contends left right)
    (perm : batch.Perm reordered) :
    (acceptedOf (self.verdicts verifier batch)).Perm
      (acceptedOf (self.verdicts verifier reordered)) := by
  have apart' : reordered.Pairwise fun left right => ¬Contends left right :=
    perm.pairwise apart fun separate contends => separate contends.symm
  rw [self.acceptedOf_verdicts_of_pairwise verifier apart,
    self.acceptedOf_verdicts_of_pairwise verifier apart']
  exact perm.filter _

end Ledger

/-- Only real conflicts contend.  A transaction that contends with an earlier accepted
one is not accepted; every other one gets the verdict it gets alone.  Hence the
accepted transactions and the nullifier set of a batch without contention do not
depend on its order. -/
theorem only_conflicts_contend (self : Ledger) (verifier : SpendVerifier) (batch : List TxV1) :
    let summary := (self.applyCheckpoint verifier batch).2
    (∀ (i : ℕ) (tx : TxV1), batch[i]? = some tx →
      ((∃ j < i, ∃ other, batch[j]? = some other ∧ summary.verdictAt j = none ∧
          Contends other tx) → summary.verdictAt i ≠ none) ∧
      ((¬∃ j < i, ∃ other, batch[j]? = some other ∧ summary.verdictAt j = none ∧
          Contends other tx) →
        summary.verdictAt i = (self.applyCheckpoint verifier [tx]).2.verdictAt 0)) ∧
    (batch.Pairwise (fun left right => ¬Contends left right) →
      ∀ reordered, batch.Perm reordered →
        let summary' := (self.applyCheckpoint verifier reordered).2
        (acceptedTxs batch summary.rejected).Perm (acceptedTxs reordered summary'.rejected) ∧
        (self.applyCheckpoint verifier batch).1.nullifiers =
          (self.applyCheckpoint verifier reordered).1.nullifiers) := by
  intro summary
  constructor
  · intro i tx found
    rw [self.contended_iff verifier, self.verdictAt_alone,
      self.verdictAt_applyCheckpoint verifier found]
    constructor
    · rintro ⟨other, accepted, contends⟩
      exact self.verdict_ne_none_of_contends verifier accepted contends
    · intro apart
      apply self.verdict_of_not_contends verifier
      exact fun other accepted contends => apart ⟨other, accepted, contends⟩
  · intro apart reordered perm summary'
    have accepted := self.accepted_perm_of_pairwise verifier apart perm
    constructor
    · rw [self.acceptedTxs_applyCheckpoint, self.acceptedTxs_applyCheckpoint]
      exact accepted
    · rw [self.applyCheckpoint_nullifiers, self.applyCheckpoint_nullifiers,
        (self.tracks_stageAll verifier batch).nullifiers,
        (self.tracks_stageAll verifier reordered).nullifiers]
      congr 1
      exact List.toFinset_eq_of_perm _ _ (accepted.flatMap_right _)

end Verdicts

section Samples

open Reference

/-- Two spends of different notes in different quota slots spend the same nullifiers in either
order. -/
theorem only_conflicts_contend_sample :
    let left := quotaTx sampleLedger.currentAnchor 1 2 7
    let right := quotaTx sampleLedger.currentAnchor 3 4 8
    (sampleLedger.applyCheckpoint lenientVerifier [left, right]).1.nullifiers =
      (sampleLedger.applyCheckpoint lenientVerifier [right, left]).1.nullifiers := by
  intro left right
  have apart : [left, right].Pairwise fun left right => ¬Contends left right := by
    apply List.pairwise_pair.mpr
    intro contends
    cases contends with
    | inl nullifier =>
        have disjoint : ¬∃ nf ∈ left.nullifiers.toList, nf ∈ right.nullifiers.toList := by
          decide +kernel
        exact disjoint nullifier
    | inr used =>
        obtain ⟨slot, leftSlot, rightSlot⟩ := used
        have different : left.antispam.slot ≠ right.antispam.slot := by decide +kernel
        exact different (leftSlot.trans rightSlot.symm)
  have settled := only_conflicts_contend sampleLedger lenientVerifier [left, right]
  exact (settled.2 apart [right, left] (List.Perm.swap _ _ _)).2

end Samples

end ShieldedLedger
