import ShieldedLedger.State.AnchorAge
import ShieldedLedger.State.RateLimit

/-!
# Judging by the history

What the ledger remembers about the past is exactly what it needs to judge a
transaction: the anchors sealed so far, the height, and the transactions accepted so
far.  The record of these judges every transaction of every run as the ledger does, in
whatever batches they come.
-/

namespace ShieldedLedger

/-- The past as far as it matters to a verdict. -/
structure Record where
  sealed : List Anchor
  height : ℕ
  accepted : List TxV1

namespace Record

/-- The anchor was sealed at most a whole window before the coming checkpoint. -/
def Knows (record : Record) (anchor : Anchor) : Prop :=
  anchor ∈ record.sealed ∧ record.height < anchor.height + anchorWindow

/-- A nullifier of the transaction was published before. -/
def Spent (record : Record) (tx : TxV1) : Prop :=
  ∃ nf ∈ tx.nullifiers.toList, nf ∈ nullifiersOf record.accepted

/-- The quota slot of the transaction, if it uses one, is for the coming checkpoint's epoch
and was not used before. -/
def Open (record : Record) (tx : TxV1) : Prop :=
  ∀ slot ∈ tx.antispam.slot,
    slot.1 = (record.height + 1) / epochLength ∧ slot ∉ slotsOf record.accepted

/-- Accept further transactions. -/
def extend (record : Record) (txs : List TxV1) : Record :=
  { record with accepted := record.accepted ++ txs }

@[simp] theorem extend_nil (record : Record) : record.extend [] = record := by
  simp [extend]

@[simp] theorem extend_extend (record : Record) (left right : List TxV1) :
    (record.extend left).extend right = record.extend (left ++ right) := by
  simp [extend]

@[simp] theorem extend_sealed (record : Record) (txs : List TxV1) :
    (record.extend txs).sealed = record.sealed := rfl

@[simp] theorem extend_height (record : Record) (txs : List TxV1) :
    (record.extend txs).height = record.height := rfl

instance (record : Record) (anchor : Anchor) : Decidable (record.Knows anchor) :=
  inferInstanceAs (Decidable (_ ∧ _))

instance (record : Record) (tx : TxV1) : Decidable (record.Spent tx) :=
  inferInstanceAs (Decidable (∃ nf ∈ tx.nullifiers.toList, nf ∈ nullifiersOf record.accepted))

instance (record : Record) (tx : TxV1) : Decidable (record.Open tx) :=
  inferInstanceAs (Decidable (∀ slot ∈ tx.antispam.slot,
    slot.1 = (record.height + 1) / epochLength ∧ slot ∉ slotsOf record.accepted))

variable [Blake3]

/-- The first reason to reject a transaction, if any, in the order of the source. -/
def judge (record : Record) (verifier : SpendVerifier) (difficultyBits : ℕ) (tx : TxV1) :
    Option RejectReason :=
  if ¬record.Knows tx.anchor then some .staleOrUnknownAnchor
  else if validateStateless tx verifier difficultyBits ≠ .ok () then some .statelessInvalid
  else if record.Spent tx then some .doubleSpend
  else if record.Open tx then none
  else some .quotaRejected

/-- Judge one transaction and record it if it is accepted. -/
def judgeStep (verifier : SpendVerifier) (difficultyBits : ℕ) (record : Record) (tx : TxV1) :
    Record × Option RejectReason :=
  let verdict := record.judge verifier difficultyBits tx
  (if verdict.isNone then record.extend [tx] else record, verdict)

/-- Judge transactions one after another. -/
def judgeAll (verifier : SpendVerifier) (difficultyBits : ℕ) (record : Record)
    (txs : List TxV1) : Record × List (Option RejectReason) :=
  Machine.run (judgeStep verifier difficultyBits) record txs

/-- Seal a checkpoint. -/
def «seal» (record : Record) (anchor : Anchor) : Record :=
  { record with sealed := record.sealed ++ [anchor], height := record.height + 1 }

end Record

/-! ## The ledger judges as its record does -/

/-- A ledger, with what it has staged of a checkpoint, remembers a record. -/
structure Remembers (record : Record) (ledger : Ledger) (seen : Finset Nullifier)
    (quota : QuotaRegistry) : Prop where
  knows : ∀ anchor, anchor ∈ ledger.tree.anchors ↔ record.Knows anchor
  height : ledger.height = record.height
  spent : ∀ nf, nf ∈ ledger.nullifiers ∨ nf ∈ seen ↔ nf ∈ nullifiersOf record.accepted
  taken : ∀ slot, (quota.seen slot).isSome = true ↔ slot ∈ slotsOf record.accepted

namespace Remembers

variable {record : Record} {ledger : Ledger} {seen : Finset Nullifier} {quota : QuotaRegistry}

theorem conflicts_iff (remembers : Remembers record ledger seen quota) (tx : TxV1) :
    ledger.Conflicts seen tx ↔ record.Spent tx := by
  simp only [Ledger.Conflicts, Record.Spent, remembers.spent]

theorem laneOpen_iff (remembers : Remembers record ledger seen quota) (tx : TxV1) :
    ledger.laneOpen quota tx.antispam = true ↔ record.Open tx := by
  cases antispam : tx.antispam with
  | pow solution => simp [Ledger.laneOpen, Record.Open, AntiSpam.slot, antispam]
  | quota rp =>
      have free : (quota.seen (rp.epoch, rp.rateNullifier)).isNone = true ↔
          (rp.epoch, rp.rateNullifier) ∉ slotsOf record.accepted := by
        rw [← remembers.taken, ← Option.not_isSome, Bool.not_eq_true', Bool.not_eq_true]
      simp [Ledger.laneOpen, Record.Open, AntiSpam.slot, antispam, remembers.height, free]

variable [Blake3]

theorem verdict_eq (remembers : Remembers record ledger seen quota) (verifier : SpendVerifier)
    (tx : TxV1) :
    ledger.verdict verifier seen quota tx = record.judge verifier ledger.difficultyBits tx := by
  simp only [Ledger.verdict, Record.judge, remembers.knows, remembers.conflicts_iff,
    remembers.laneOpen_iff]

/-- What is staged of a checkpoint extends the record. -/
theorem stageAll (remembers : Remembers record ledger ∅ ledger.quota) (verifier : SpendVerifier)
    (batch : List TxV1) :
    Remembers (record.extend (acceptedOf (ledger.verdicts verifier batch))) ledger
      (ledger.stageAll verifier batch).seenThisCheckpoint
      (ledger.stageAll verifier batch).quota := by
  have tracks := ledger.tracks_stageAll verifier batch
  have tracked := ledger.slotsTracked_stageAll verifier batch
  refine ⟨remembers.knows, remembers.height, fun nf => ?_, fun slot => ?_⟩
  · have before := remembers.spent nf
    rw [or_iff_left (Finset.notMem_empty nf)] at before
    rw [Record.extend, before, tracks.seen, List.mem_toFinset, nullifiersOf_append, List.mem_append]
  · rw [Record.extend, tracked.taken, remembers.taken, slotsOf_append, List.mem_append]

end Remembers

/-! ## Runs -/

/-- The record of a run from its genesis anchor. -/
def recordOf [Blake3] (start : Anchor) (validators : List ValidatorInfo)
    (entries : List (List TxV1 × CheckpointSummary)) : Record where
  sealed := sealedIn start (entries.map Prod.snd)
  height := entries.length
  accepted := acceptedIn (blocksOf validators entries)

/-- The first transactions of a batch are accepted as the rejected list says. -/
theorem acceptedTxs_append (earlier later : List (TxV1 × Option RejectReason)) :
    acceptedTxs (earlier.map Prod.fst) (rejectedOf (earlier ++ later)) = acceptedOf earlier := by
  rw [← acceptedTxs_rejectedOf earlier, acceptedTxs, acceptedTxs]
  congr 1
  apply List.filter_congr
  rintro ⟨tx, i⟩ member
  have inside : i < earlier.length := by
    have found := List.mk_mem_zipIdx_iff_getElem?.mp member
    simpa using (List.getElem?_eq_some_iff.mp found).1
  have listed : i ∈ (rejectedOf (earlier ++ later)).map Prod.fst ↔
      i ∈ (rejectedOf earlier).map Prod.fst := by
    simp [mem_rejectedOf, List.getElem?_append_left inside]
  simp only [listed]

section History

variable [Blake3]

theorem remembers_run (emission : EmissionParams) (validators : List ValidatorInfo)
    (difficultyBits : ℕ) (genesisNotes : List (Commitment × UInt64)) (verifier : SpendVerifier)
    (batches : List (List TxV1)) :
    let start := Ledger.genesis emission validators difficultyBits genesisNotes
    let outcome := start.run verifier batches
    Remembers (recordOf start.currentAnchor validators (batches.zip outcome.2)) outcome.1 ∅
      outcome.1.quota := by
  intro start outcome
  have lengthEq : outcome.2.length = batches.length := Machine.length_outputs _ _
  have summaries : (batches.zip outcome.2).map Prod.snd = outcome.2 :=
    List.map_snd_zip lengthEq.le
  have retains := Ledger.retains_run (Ledger.retains_genesis emission validators difficultyBits
    genesisNotes) verifier batches
  have follows := Ledger.follows_run (Ledger.follows_genesis emission validators difficultyBits
    genesisNotes) verifier batches
  have limited := Ledger.rateLimited_run emission validators difficultyBits genesisNotes verifier
    batches
  refine ⟨fun anchor => ?_, follows.height, fun nf => ?_, limited.taken⟩
  · rw [retains.mem_iff, Record.Knows, recordOf, summaries, follows.height]
  · rw [follows.nullifiers, or_iff_left (Finset.notMem_empty nf), List.mem_toFinset, recordOf]

namespace Ledger

theorem verdicts_append (self : Ledger) (verifier : SpendVerifier) (left right : List TxV1) :
    ∃ later, self.verdicts verifier (left ++ right) = self.verdicts verifier left ++ later := by
  rw [verdicts, verdicts, Machine.run_append,
    List.zip_append (Machine.length_outputs _ _).symm]
  exact ⟨_, rfl⟩

theorem acceptedTxs_take (self : Ledger) (verifier : SpendVerifier) (batch : List TxV1) (i : ℕ) :
    acceptedTxs (batch.take i) (self.applyCheckpoint verifier batch).2.rejected =
      acceptedOf (self.verdicts verifier (batch.take i)) := by
  obtain ⟨later, split⟩ := self.verdicts_append verifier (batch.take i) (batch.drop i)
  rw [List.take_append_drop] at split
  rw [applyCheckpoint_summary_rejected, (self.tracks_stageAll verifier batch).rejected, split,
    ← acceptedTxs_append _ later, map_fst_verdicts]

end Ledger

/-- Every verdict of every run is that of the history: of the anchors sealed, the height
reached and the transactions accepted before, in earlier checkpoints or in this one. -/
theorem verdict_of_history (emission : EmissionParams) (validators : List ValidatorInfo)
    (difficultyBits : ℕ) (genesisNotes : List (Commitment × UInt64)) (verifier : SpendVerifier)
    (batches : List (List TxV1)) :
    let start := Ledger.genesis emission validators difficultyBits genesisNotes
    let entries := batches.zip (start.run verifier batches).2
    ∀ k batch summary i tx, entries[k]? = some (batch, summary) → batch[i]? = some tx →
      let past := recordOf start.currentAnchor validators (entries.take k)
      summary.verdictAt i = (past.extend (acceptedTxs (batch.take i) summary.rejected)).judge
        verifier difficultyBits tx := by
  intro start entries k batch summary i tx at_k at_i past
  obtain ⟨found, output⟩ := List.getElem?_zip_eq_some.mp at_k
  let before := start.run verifier (batches.take k)
  have applied : (before.1.applyCheckpoint verifier batch).2 = summary := by
    have step := start.getElem?_summaries verifier batches k
    rw [found] at step
    exact Option.some.inj (step.symm.trans output)
  have history : entries.take k = (batches.take k).zip before.2 :=
    List.take_zipWith.trans (congrArg (List.zip _) (Machine.take_outputs start batches k))
  have remembers := (remembers_run emission validators difficultyBits genesisNotes verifier
    (batches.take k)).stageAll verifier (batch.take i)
  have bits : before.1.difficultyBits = difficultyBits := start.run_difficultyBits verifier _
  simp only [past, history, ← applied]
  rw [before.1.acceptedTxs_take, before.1.verdictAt_applyCheckpoint verifier at_i,
    remembers.verdict_eq, bits]

/-! ## Waiting -/

theorem Record.judge_eq_none_iff {record : Record} {verifier : SpendVerifier} {difficultyBits : ℕ}
    {tx : TxV1} :
    record.judge verifier difficultyBits tx = none ↔
      record.Knows tx.anchor ∧ validateStateless tx verifier difficultyBits = .ok () ∧
        ¬record.Spent tx ∧ record.Open tx := by
  rw [judge]
  split_ifs <;> simp_all

/-- What the accepted transactions of a history record is what its checkpoints accepted. -/
theorem recordOf_append (start : Anchor) (validators : List ValidatorInfo)
    (past since : List (List TxV1 × CheckpointSummary)) :
    recordOf start validators (past ++ since) =
      { sealed := (recordOf start validators past).sealed ++
          since.map fun entry => entry.2.anchor
        height := (recordOf start validators past).height + since.length
        accepted := (recordOf start validators past).accepted ++
          since.flatMap fun entry => acceptedTxs entry.1 entry.2.rejected } := by
  simp [recordOf, sealedIn, acceptedIn, blocksOf, blockOf, List.flatMap_map, Function.comp_def]

/-- More history keeps a transaction acceptable exactly when its anchor and its epoch are
still current and nothing accepted contends with it. -/
theorem Record.judge_extended_iff {record : Record} {verifier : SpendVerifier} {difficultyBits : ℕ}
    {tx : TxV1} (acceptable : record.judge verifier difficultyBits tx = none)
    (anchors : List Anchor) (count : ℕ) (accepted : List TxV1) :
    Record.judge ⟨record.sealed ++ anchors, record.height + count, record.accepted ++ accepted⟩
        verifier difficultyBits tx = none ↔
      record.height + count < tx.anchor.height + anchorWindow ∧
      (∀ slot, tx.antispam.slot = some slot →
        slot.1 = (record.height + count + 1) / epochLength) ∧
      ∀ other ∈ accepted, ¬Contends other tx := by
  obtain ⟨known, valid, unspent, free⟩ := judge_eq_none_iff.mp acceptable
  rw [judge_eq_none_iff]
  constructor
  · rintro ⟨current, -, fresh, lane⟩
    refine ⟨current.2, fun slot used => (lane slot used).1, fun other member contends => ?_⟩
    rcases contends with ⟨nf, otherMem, txMem⟩ | ⟨slot, otherSlot, used⟩
    · refine fresh ⟨nf, txMem, ?_⟩
      rw [nullifiersOf_append, List.mem_append]
      exact .inr (List.mem_flatMap.mpr ⟨other, member, otherMem⟩)
    · refine (lane slot used).2 ?_
      rw [slotsOf_append, List.mem_append]
      exact .inr (mem_slotsOf.mpr ⟨other, member, otherSlot⟩)
  · rintro ⟨current, epoch, apart⟩
    refine ⟨⟨List.mem_append_left _ known.1, current⟩, valid, ?_, fun slot used => ?_⟩
    · rintro ⟨nf, txMem, spent⟩
      rw [nullifiersOf_append, List.mem_append] at spent
      rcases spent with before | since
      · exact unspent ⟨nf, txMem, before⟩
      · obtain ⟨other, member, otherMem⟩ := List.mem_flatMap.mp since
        exact apart other member (.inl ⟨nf, otherMem, txMem⟩)
    · refine ⟨epoch slot used, fun taken => ?_⟩
      rw [slotsOf_append, List.mem_append] at taken
      rcases taken with before | since
      · exact (free slot used).2 before
      · obtain ⟨other, member, otherSlot⟩ := mem_slotsOf.mp since
        exact apart other member (.inr ⟨slot, otherSlot, used⟩)

/-- A transaction that could be accepted and waits is still acceptable exactly while its
anchor is in the window, the epoch of its slot lasts, and no transaction accepted in the
meantime contends with it. -/
theorem stays_acceptable_iff (emission : EmissionParams) (validators : List ValidatorInfo)
    (difficultyBits : ℕ) (genesisNotes : List (Commitment × UInt64)) (verifier : SpendVerifier)
    (past since : List (List TxV1)) (tx : TxV1) :
    let before := ((Ledger.genesis emission validators difficultyBits genesisNotes).run verifier
      past).1
    let outcome := before.run verifier since
    let accepted := (since.zip outcome.2).flatMap fun entry => acceptedTxs entry.1 entry.2.rejected
    (before.applyCheckpoint verifier [tx]).2.accepted = 1 →
      ((outcome.1.applyCheckpoint verifier [tx]).2.accepted = 1 ↔
        outcome.1.height < tx.anchor.height + anchorWindow ∧
        (∀ slot, tx.antispam.slot = some slot →
          slot.1 = (outcome.1.height + 1) / epochLength) ∧
        ∀ other ∈ accepted, ¬Contends other tx) := by
  intro before outcome accepted acceptable
  have now := remembers_run emission validators difficultyBits genesisNotes verifier past
  have later := remembers_run emission validators difficultyBits genesisNotes verifier
    (past ++ since)
  set start := Ledger.genesis emission validators difficultyBits genesisNotes
  have ran : start.run verifier (past ++ since) =
      (outcome.1, (start.run verifier past).2 ++ outcome.2) := Machine.run_append _ _ _
  have lengthEq : (start.run verifier past).2.length = past.length := Machine.length_outputs _ _
  have history : (past ++ since).zip (start.run verifier (past ++ since)).2 =
      past.zip (start.run verifier past).2 ++ since.zip outcome.2 := by
    rw [ran, List.zip_append lengthEq.symm]
  have bits : before.difficultyBits = difficultyBits := start.run_difficultyBits verifier _
  have bits' : outcome.1.difficultyBits = difficultyBits :=
    (before.run_difficultyBits verifier _).trans bits
  dsimp only at now later
  rw [history, recordOf_append, ran] at later
  rw [Ledger.accepted_singleton_iff, now.verdict_eq, bits] at acceptable
  rw [Ledger.accepted_singleton_iff, later.verdict_eq, bits', later.height]
  exact Record.judge_extended_iff acceptable _ _ _

end History

section Samples

open Reference

/-- Two checkpoints after it was accepted, a transaction is judged by what the history says of
its nullifiers. -/
theorem agedTx_judged :
    let later := (freshLedger.run devVerifier [[agedTx], []]).1
    (later.applyCheckpoint devVerifier [agedTx]).2.verdictAt 0 = some .doubleSpend := by
  have judged := verdict_of_history sampleEmission [] 0 [] devVerifier [[agedTx], [], [agedTx]] 2
    [agedTx] _ 0 agedTx rfl rfl
  have first (rejected : List (ℕ × RejectReason)) :
      acceptedTxs ([agedTx].take 0) rejected = [] := rfl
  rw [first] at judged
  refine judged.trans ?_
  decide +kernel

/-- The aged transaction is acceptable at genesis and after an idle checkpoint. -/
theorem agedTx_stays_acceptable :
    let before := ((Ledger.genesis sampleEmission [] 0 []).run devVerifier []).1
    ((before.run devVerifier [[]]).1.applyCheckpoint devVerifier [agedTx]).2.accepted = 1 := by
  have acceptable : (((Ledger.genesis sampleEmission [] 0 []).run devVerifier []).1.applyCheckpoint
      devVerifier [agedTx]).2.accepted = 1 := by
    decide +kernel
  have current : (((Ledger.genesis sampleEmission [] 0 []).run devVerifier []).1.run devVerifier
      [[]]).1.height < agedTx.anchor.height + anchorWindow := by
    decide +kernel
  exact (stays_acceptable_iff sampleEmission [] 0 [] devVerifier [] [[]] agedTx acceptable).mpr
    ⟨current, nofun, fun other member => nomatch (show other ∈ [] from member)⟩

end Samples

end ShieldedLedger
