import ShieldedLedger.General.Tombstones
import ShieldedLedger.State

/-!
# Verdicts of a checkpoint

The loop over the ordered transactions gives every transaction a verdict: no
reason to reject it, or the first reason met.  The verdict depends on the
ledger, on the nullifiers accepted earlier in the checkpoint and on the quota
registry; everything a checkpoint stages is determined by the list of verdicts.
-/

namespace ShieldedLedger

/-- The registry after an admitted anti-spam body. -/
def QuotaRegistry.register (quota : QuotaRegistry) : AntiSpam → QuotaRegistry
  | .pow _ => quota
  | .quota rp => (quota.admitProof rp).1

/-- Staged states that are equal but for their registries, which agree. -/
def Staged.SameUpTo (agree : QuotaRegistry → QuotaRegistry → Prop) (left right : Staged) : Prop :=
  ∃ registry, left = { right with quota := registry } ∧ agree registry right.quota

namespace Ledger

/-- The quota lane is for the coming epoch and its slot is free. -/
def laneOpen (self : Ledger) (quota : QuotaRegistry) : AntiSpam → Bool
  | .pow _ => true
  | .quota rp => rp.epoch == (self.height + 1) / epochLength &&
      (quota.seen (rp.epoch, rp.rateNullifier)).isNone

/-- A nullifier of the transaction is spent already. -/
def Conflicts (self : Ledger) (seen : Finset Nullifier) (tx : TxV1) : Prop :=
  ∃ nf ∈ tx.nullifiers.toList, nf ∈ self.nullifiers ∨ nf ∈ seen

instance (self : Ledger) (seen : Finset Nullifier) (tx : TxV1) :
    Decidable (self.Conflicts seen tx) :=
  inferInstanceAs (Decidable (∃ nf ∈ tx.nullifiers.toList, nf ∈ self.nullifiers ∨ nf ∈ seen))

/-- At the start of a checkpoint only committed nullifiers conflict. -/
theorem conflicts_empty_iff (self : Ledger) (tx : TxV1) :
    self.Conflicts ∅ tx ↔ ∃ nf ∈ tx.nullifiers.toList, nf ∈ self.nullifiers := by
  simp [Conflicts]

end Ledger

section Verdict

variable [Blake3]

namespace Ledger

/-- The first reason to reject a transaction, if any. -/
def verdict (self : Ledger) (verifier : SpendVerifier) (seen : Finset Nullifier)
    (quota : QuotaRegistry) (tx : TxV1) : Option RejectReason :=
  if tx.anchor ∉ self.tree.anchors then some .staleOrUnknownAnchor
  else if validateStateless tx verifier self.difficultyBits ≠ .ok () then some .statelessInvalid
  else if self.Conflicts seen tx then some .doubleSpend
  else if self.laneOpen quota tx.antispam then none
  else some .quotaRejected

/-- What a verdict does to the staged state. -/
def settle (i : ℕ) (tx : TxV1) (staged : Staged) : Option RejectReason → Staged
  | none => { staged with quota := staged.quota.register tx.antispam }.accept tx
  | some reason => staged.reject i reason

/-- The loop body settles the verdict of its transaction. -/
theorem stageTx_eq (self : Ledger) (verifier : SpendVerifier) (i : ℕ) (tx : TxV1)
    (staged : Staged) :
    self.stageTx verifier i tx staged =
      settle i tx staged
        (self.verdict verifier staged.seenThisCheckpoint staged.quota tx) := by
  have conflict : (tx.nullifiers.toList.any fun nf => decide (nf ∈ self.nullifiers) ||
      decide (nf ∈ staged.seenThisCheckpoint)) =
        decide (self.Conflicts staged.seenThisCheckpoint tx) := by
    rw [Bool.eq_iff_iff, decide_eq_true_eq]
    simp [Conflicts]
  unfold stageTx verdict
  rw [conflict, CommitmentTree.anchorValid_eq]
  by_cases anchor : tx.anchor ∈ self.tree.anchors
  · by_cases valid : validateStateless tx verifier self.difficultyBits = .ok ()
    · by_cases spent : self.Conflicts staged.seenThisCheckpoint tx
      · simp [anchor, valid, spent, settle]
      · simp only [anchor, valid, spent, decide_true, decide_false, Bool.not_true,
          Bool.false_eq_true, if_false, ne_eq, not_true_eq_false]
        cases lane : tx.antispam with
        | pow solution => simp [laneOpen, settle, lane, QuotaRegistry.register]
        | quota rp =>
            by_cases epoch : rp.epoch = (self.height + 1) / epochLength
            · cases found : staged.quota.seen (rp.epoch, rp.rateNullifier) with
              | none =>
                  have «open» : self.laneOpen staged.quota (.quota rp) = true := by
                    rw [laneOpen, found, beq_iff_eq.mpr epoch]
                    rfl
                  simp only [if_neg (not_not.mpr epoch),
                    QuotaRegistry.admitProof_of_free found, «open»,
                    if_true, settle, lane, QuotaRegistry.register]
              | some share =>
                  have closed : self.laneOpen staged.quota (.quota rp) = false := by
                    rw [laneOpen, found]
                    simp
                  obtain ⟨refusal, refused, admitted⟩ := QuotaRegistry.admitProof_of_used found
                  simp only [if_neg (not_not.mpr epoch), admitted, closed, settle,
                    Bool.false_eq_true, if_false]
            · simp [laneOpen, settle, epoch]
    · simp [anchor, valid, settle]
  · simp [anchor, settle]

omit [Blake3] in
/-- Settling one verdict keeps two staged states equal up to their registries, when
accepted transactions carry the same effects. -/
theorem sameUpTo_settle {agree : QuotaRegistry → QuotaRegistry → Prop} {left right : Staged}
    (same : left.SameUpTo agree right) (i : ℕ) {tx tx' : TxV1} {verdict : Option RejectReason}
    (effects : verdict = none → tx.nullifiers = tx'.nullifiers ∧ tx.commitments = tx'.commitments)
    (registered : verdict = none → ∀ registry registry', agree registry registry' →
      agree (registry.register tx.antispam) (registry'.register tx'.antispam)) :
    (settle i tx left verdict).SameUpTo agree (settle i tx' right verdict) := by
  obtain ⟨registry, rfl, agreed⟩ := same
  cases verdict with
  | some reason => exact ⟨registry, rfl, agreed⟩
  | none =>
      obtain ⟨nullifiers, commitments⟩ := effects rfl
      refine ⟨registry.register tx.antispam, ?_, registered rfl _ _ agreed⟩
      simp only [settle, Staged.accept, nullifiers, commitments]

/-- What a transaction without a reason to reject it fulfils. -/
structure Acceptable (ledger : Ledger) (verifier : SpendVerifier) (seen : Finset Nullifier)
    (quota : QuotaRegistry) (tx : TxV1) : Prop where
  anchor : tx.anchor ∈ ledger.tree.anchors
  valid : validateStateless tx verifier ledger.difficultyBits = .ok ()
  fresh : ¬ledger.Conflicts seen tx
  lane : ledger.laneOpen quota tx.antispam = true

theorem verdict_eq_none_iff (self : Ledger) (verifier : SpendVerifier) (seen : Finset Nullifier)
    (quota : QuotaRegistry) (tx : TxV1) :
    self.verdict verifier seen quota tx = none ↔ self.Acceptable verifier seen quota tx := by
  unfold verdict
  constructor
  · intro accepted
    split_ifs at accepted with anchor valid conflict lane
    exact ⟨anchor, not_not.mp valid, conflict, lane⟩
  · rintro ⟨anchor, valid, fresh, lane⟩
    simp [anchor, valid, fresh, lane]

/-- The loop body as a machine that counts the transactions and emits verdicts. -/
def stageStep (self : Ledger) (verifier : SpendVerifier) (position : ℕ × Staged) (tx : TxV1) :
    (ℕ × Staged) × Option RejectReason :=
  ((position.1 + 1, self.stageTx verifier position.1 tx position.2),
    self.verdict verifier position.2.seenThisCheckpoint position.2.quota tx)

theorem stageFrom_eq_run (self : Ledger) (verifier : SpendVerifier) (ordered : List TxV1) :
    ∀ (i : ℕ) (staged : Staged), self.stageFrom verifier i ordered staged =
      (Machine.run (self.stageStep verifier) (i, staged) ordered).1.2 := by
  induction ordered with
  | nil => exact fun _ _ => rfl
  | cons tx rest ih => exact fun i staged => ih (i + 1) _

end Ledger

end Verdict

/-! ## Verdict lists -/

/-- The accepted transactions of a list of verdicts. -/
def acceptedOf (entries : List (TxV1 × Option RejectReason)) : List TxV1 :=
  (entries.filter fun entry => entry.2.isNone).map Prod.fst

/-- The rejected indices of a list of verdicts, with their reasons. -/
def rejectedOf (entries : List (TxV1 × Option RejectReason)) : List (ℕ × RejectReason) :=
  entries.zipIdx.filterMap fun entry => entry.1.2.map fun reason => (entry.2, reason)

/-- The transactions of a batch whose index is not listed as rejected. -/
def acceptedTxs (ordered : List TxV1) (rejected : List (ℕ × RejectReason)) : List TxV1 :=
  (ordered.zipIdx.filter fun entry => decide (entry.2 ∉ rejected.map Prod.fst)).map Prod.fst

/-- The nullifiers of transactions, in order. -/
def nullifiersOf (txs : List TxV1) : List Nullifier := txs.flatMap fun tx => tx.nullifiers.toList

/-- The commitments of transactions, in order. -/
def commitmentsOf (txs : List TxV1) : List Commitment :=
  txs.flatMap fun tx => tx.commitments.toList

@[simp] theorem nullifiersOf_append (left right : List TxV1) :
    nullifiersOf (left ++ right) = nullifiersOf left ++ nullifiersOf right :=
  List.flatMap_append

@[simp] theorem commitmentsOf_append (left right : List TxV1) :
    commitmentsOf (left ++ right) = commitmentsOf left ++ commitmentsOf right :=
  List.flatMap_append

@[simp] theorem length_nullifiersOf (txs : List TxV1) :
    (nullifiersOf txs).length = txInputs * txs.length := by
  simp [nullifiersOf, List.length_flatMap, mul_comm]

@[simp] theorem acceptedOf_append_none (entries : List (TxV1 × Option RejectReason)) (tx : TxV1) :
    acceptedOf (entries ++ [(tx, none)]) = acceptedOf entries ++ [tx] := by
  simp [acceptedOf]

@[simp] theorem acceptedOf_append_some (entries : List (TxV1 × Option RejectReason)) (tx : TxV1)
    (reason : RejectReason) :
    acceptedOf (entries ++ [(tx, some reason)]) = acceptedOf entries := by
  simp [acceptedOf]

@[simp] theorem rejectedOf_append_none (entries : List (TxV1 × Option RejectReason)) (tx : TxV1) :
    rejectedOf (entries ++ [(tx, none)]) = rejectedOf entries := by
  simp [rejectedOf, List.zipIdx_append]

@[simp] theorem rejectedOf_append_some (entries : List (TxV1 × Option RejectReason)) (tx : TxV1)
    (reason : RejectReason) :
    rejectedOf (entries ++ [(tx, some reason)]) =
      rejectedOf entries ++ [(entries.length, reason)] := by
  simp [rejectedOf, List.zipIdx_append]

theorem mem_rejectedOf {entries : List (TxV1 × Option RejectReason)} {i : ℕ}
    {reason : RejectReason} :
    (i, reason) ∈ rejectedOf entries ↔ ∃ tx, entries[i]? = some (tx, some reason) := by
  simp only [rejectedOf, List.mem_filterMap, Option.map_eq_some_iff, Prod.mk.injEq]
  constructor
  · rintro ⟨⟨⟨tx, verdict⟩, index⟩, member, reason', same, rfl, rfl⟩
    obtain rfl : verdict = some reason' := same
    exact ⟨tx, List.mk_mem_zipIdx_iff_getElem?.mp member⟩
  · rintro ⟨tx, found⟩
    exact ⟨((tx, some reason), i), List.mk_mem_zipIdx_iff_getElem?.mpr found, reason, rfl, rfl, rfl⟩

theorem mem_acceptedOf {entries : List (TxV1 × Option RejectReason)} {tx : TxV1} :
    tx ∈ acceptedOf entries ↔ (tx, none) ∈ entries := by
  simp [acceptedOf]

/-- The rejected list determines the verdict at every index. -/
theorem verdict_eq_of_rejectedOf {left right : List (TxV1 × Option RejectReason)}
    (same : rejectedOf left = rejectedOf right) {i : ℕ} {tx tx' : TxV1}
    {verdict verdict' : Option RejectReason} (leftAt : left[i]? = some (tx, verdict))
    (rightAt : right[i]? = some (tx', verdict')) : verdict = verdict' := by
  apply Option.ext
  intro reason
  have listed {entries : List (TxV1 × Option RejectReason)} {tx : TxV1}
      {verdict : Option RejectReason} (found : entries[i]? = some (tx, verdict)) :
      verdict = some reason ↔ (i, reason) ∈ rejectedOf entries := by
    rw [mem_rejectedOf, found]
    simp
  rw [listed leftAt, listed rightAt, same]

theorem length_acceptedOf_add (entries : List (TxV1 × Option RejectReason)) :
    (acceptedOf entries).length + (rejectedOf entries).length = entries.length := by
  induction entries using List.reverseRecOn with
  | nil => rfl
  | append_singleton entries entry ih =>
      rcases entry with ⟨tx, _ | reason⟩ <;> simp <;> omega

/-- Rejected indices are strictly increasing. -/
theorem pairwise_rejectedOf (entries : List (TxV1 × Option RejectReason)) :
    ((rejectedOf entries).map Prod.fst).Pairwise (· < ·) := by
  induction entries using List.reverseRecOn with
  | nil => exact List.Pairwise.nil
  | append_singleton entries entry ih =>
      rcases entry with ⟨tx, _ | reason⟩
      · simpa using ih
      · rw [rejectedOf_append_some, List.map_append, List.pairwise_append]
        refine ⟨ih, by simp, ?_⟩
        intro i member j last
        obtain ⟨⟨index, why⟩, rejected, rfl⟩ := List.mem_map.mp member
        obtain ⟨other, found⟩ := mem_rejectedOf.mp rejected
        obtain rfl : j = entries.length := by simpa using last
        exact (List.getElem?_eq_some_iff.mp found).1

/-- The rejected indices single out the accepted transactions. -/
theorem acceptedTxs_rejectedOf (entries : List (TxV1 × Option RejectReason)) :
    acceptedTxs (entries.map Prod.fst) (rejectedOf entries) = acceptedOf entries := by
  have kept (entry : (TxV1 × Option RejectReason) × ℕ) (member : entry ∈ entries.zipIdx) :
      decide (entry.2 ∉ (rejectedOf entries).map Prod.fst) = entry.1.2.isNone := by
    obtain ⟨⟨tx, verdict⟩, i⟩ := entry
    have found := List.mk_mem_zipIdx_iff_getElem?.mp member
    cases verdict with
    | none =>
        simp only [Option.isNone_none, decide_eq_true_eq]
        intro listed
        obtain ⟨⟨index, reason⟩, rejected, rfl⟩ := List.mem_map.mp listed
        obtain ⟨other, found'⟩ := mem_rejectedOf.mp rejected
        simp [found] at found'
    | some reason =>
        simp only [Option.isNone_some, decide_eq_false_iff_not, not_not]
        exact List.mem_map_of_mem (f := Prod.fst) (mem_rejectedOf.mpr ⟨tx, found⟩)
  calc acceptedTxs (entries.map Prod.fst) (rejectedOf entries)
      = ((entries.zipIdx.filter fun entry =>
          decide (entry.2 ∉ (rejectedOf entries).map Prod.fst)).map fun entry => entry.1.1) := by
        simp [acceptedTxs, List.zipIdx_map, List.filter_map, Function.comp_def]
    _ = ((entries.zipIdx.filter fun entry => entry.1.2.isNone).map fun entry => entry.1.1) := by
        rw [List.filter_congr kept]
    _ = acceptedOf entries := by
        have unzipped : entries = entries.zipIdx.map Prod.fst := (List.zipIdx_map_fst ..).symm
        conv_rhs => rw [acceptedOf, unzipped, List.filter_map, List.map_map]
        rfl

/-! ## What a checkpoint stages -/

/-- A staged state records exactly the verdicts given so far. -/
structure Tracks (ledger : Ledger) (entries : List (TxV1 × Option RejectReason))
    (position : ℕ × Staged) : Prop where
  index : position.1 = entries.length
  nullifiers : position.2.nullifiers = nullifiersOf (acceptedOf entries)
  commitments : position.2.commitments = commitmentsOf (acceptedOf entries)
  seen : position.2.seenThisCheckpoint = (nullifiersOf (acceptedOf entries)).toFinset
  accepted : position.2.accepted = (acceptedOf entries).length
  rejected : position.2.rejected = rejectedOf entries
  nodup : (nullifiersOf (acceptedOf entries)).Nodup
  fresh : ∀ nf ∈ nullifiersOf (acceptedOf entries), nf ∉ ledger.nullifiers

variable [Blake3]

/-- The nullifiers of a statelessly valid transaction are distinct. -/
theorem nodup_nullifiers_of_valid {tx : TxV1} {verifier : SpendVerifier} {difficultyBits : ℕ}
    (valid : validateStateless tx verifier difficultyBits = .ok ()) :
    tx.nullifiers.toList.Nodup := by
  have ordered := ((validateStateless_ok_iff tx verifier difficultyBits).mp valid).2.1
  rw [tx.nullifiers_toList]
  simp only [List.nodup_cons, List.mem_singleton, List.not_mem_nil, not_false_eq_true,
    List.nodup_nil, and_true]
  intro equal
  rw [equal] at ordered
  exact lt_irrefl _ ordered

namespace Ledger

theorem tracks_stageStep (self : Ledger) (verifier : SpendVerifier)
    (entries : List (TxV1 × Option RejectReason)) (position : ℕ × Staged) (tx : TxV1)
    (tracks : Tracks self entries position) :
    Tracks self (entries ++ [(tx, (self.stageStep verifier position tx).2)])
      (self.stageStep verifier position tx).1 := by
  obtain ⟨i, staged⟩ := position
  simp only [stageStep, stageTx_eq]
  cases verdictEq : self.verdict verifier staged.seenThisCheckpoint staged.quota tx with
  | some reason =>
      simp only [settle, Staged.reject]
      exact {
        index := by simpa using tracks.index
        nullifiers := by simpa using tracks.nullifiers
        commitments := by simpa using tracks.commitments
        seen := by simpa using tracks.seen
        accepted := by simpa using tracks.accepted
        rejected := by
          rw [rejectedOf_append_some, ← tracks.rejected, ← tracks.index]
        nodup := by simpa using tracks.nodup
        fresh := by simpa using tracks.fresh }
  | none =>
      have acceptable := (self.verdict_eq_none_iff ..).mp verdictEq
      have unspent (nf : Nullifier) (member : nf ∈ tx.nullifiers.toList) :
          nf ∉ self.nullifiers ∧ nf ∉ nullifiersOf (acceptedOf entries) := by
        constructor
        · exact fun spent => acceptable.fresh ⟨nf, member, .inl spent⟩
        · intro spent
          refine acceptable.fresh ⟨nf, member, .inr ?_⟩
          rw [tracks.seen]
          exact List.mem_toFinset.mpr spent
      have single : nullifiersOf [tx] = tx.nullifiers.toList := by simp [nullifiersOf]
      simp only [settle, Staged.accept, Tombstones.foldl_insert_eq_union]
      exact {
        index := by simpa using tracks.index
        nullifiers := by simpa [single] using tracks.nullifiers
        commitments := by simpa [commitmentsOf] using tracks.commitments
        seen := by simpa [single] using congrArg (· ∪ tx.nullifiers.toList.toFinset) tracks.seen
        accepted := by simpa using tracks.accepted
        rejected := by simpa using tracks.rejected
        nodup := by
          rw [acceptedOf_append_none, nullifiersOf_append, single, List.nodup_append]
          refine ⟨tracks.nodup, nodup_nullifiers_of_valid acceptable.valid, ?_⟩
          intro nf earlier other member equal
          exact (unspent other member).2 (equal ▸ earlier)
        fresh := by
          intro nf member
          rw [acceptedOf_append_none, nullifiersOf_append, single, List.mem_append] at member
          rcases member with earlier | added
          · exact tracks.fresh nf earlier
          · exact (unspent nf added).1 }

/-- The verdicts of a batch. -/
def verdicts (self : Ledger) (verifier : SpendVerifier) (ordered : List TxV1) :
    List (TxV1 × Option RejectReason) :=
  ordered.zip (Machine.run (self.stageStep verifier) (0, Staged.init self.quota) ordered).2

@[simp] theorem map_fst_verdicts (self : Ledger) (verifier : SpendVerifier)
    (ordered : List TxV1) : (self.verdicts verifier ordered).map Prod.fst = ordered :=
  List.map_fst_zip (by simp)

theorem length_verdicts (self : Ledger) (verifier : SpendVerifier) (ordered : List TxV1) :
    (self.verdicts verifier ordered).length = ordered.length := by
  rw [← List.length_map (f := Prod.fst), map_fst_verdicts]

/-- The staged state of a whole batch. -/
def stageAll (self : Ledger) (verifier : SpendVerifier) (ordered : List TxV1) : Staged :=
  self.stageFrom verifier 0 ordered (Staged.init self.quota)

theorem tracks_stageAll (self : Ledger) (verifier : SpendVerifier) (ordered : List TxV1) :
    Tracks self (self.verdicts verifier ordered)
      (ordered.length, self.stageAll verifier ordered) := by
  have initial : Tracks self [] (0, Staged.init self.quota) :=
    ⟨rfl, rfl, rfl, rfl, rfl, rfl, List.nodup_nil, by simp [acceptedOf, nullifiersOf]⟩
  have tracks := Machine.run_history (self.stageStep verifier) (Tracks self)
    (self.tracks_stageStep verifier) initial ordered
  rw [List.nil_append] at tracks
  rw [stageAll, stageFrom_eq_run]
  exact { tracks with index := (self.length_verdicts verifier ordered).symm }

end Ledger

end ShieldedLedger
