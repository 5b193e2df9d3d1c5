import ShieldedLedger.State.Judge

/-!
# Where a stream is cut into checkpoints

Consensus commits a stream of transactions and cuts it into checkpoints.  As long as
the anchors that the transactions name stay in the window and the quota epoch lasts, the
places of the cuts do not matter to any verdict.
-/

namespace ShieldedLedger

/-- The height matters to a transaction only through the age of its anchor and the epoch
of its quota slot; both are the same for the next `count` checkpoints. -/
structure Steady (height count : ℕ) (tx : TxV1) : Prop where
  known : tx.anchor.height ≤ height
  lasting : height < tx.anchor.height + anchorWindow →
    height + count ≤ tx.anchor.height + anchorWindow
  epoch : ∀ slot, tx.antispam.slot = some slot →
    (height + 1) / epochLength = (height + count) / epochLength

/-- The verdicts that a summary reports for its batch, in order. -/
def verdictsOf (entry : List TxV1 × CheckpointSummary) : List (Option RejectReason) :=
  (List.range entry.1.length).map entry.2.verdictAt

/-- The transactions of a batch that its summary does not report as rejected. -/
def acceptedBy (entry : List TxV1 × CheckpointSummary) : List TxV1 :=
  acceptedTxs entry.1 entry.2.rejected

/-- An epoch that is the same at both ends is the same in between. -/
theorem Steady.epoch_next {height count : ℕ} {tx : TxV1} (steady : Steady height (count + 1) tx)
    (more : 0 < count) {slot : ℕ × Bytes32} (used : tx.antispam.slot = some slot) :
    (height + 1 + 1) / epochLength = (height + 1) / epochLength := by
  have ends := steady.epoch slot used
  have lower : (height + 1) / epochLength ≤ (height + 1 + 1) / epochLength :=
    Nat.div_le_div_right (Nat.le_succ _)
  have upper : (height + 1 + 1) / epochLength ≤ (height + (count + 1)) / epochLength :=
    Nat.div_le_div_right (by omega)
  omega

theorem Steady.next {height count : ℕ} {tx : TxV1} (steady : Steady height (count + 1) tx)
    (more : 0 < count) : Steady (height + 1) count tx := by
  refine ⟨steady.known.trans (Nat.le_succ _), fun known => ?_, fun slot used => ?_⟩
  · have lasting := steady.lasting (by omega)
    omega
  · rw [steady.epoch_next more used, steady.epoch slot used, Nat.add_assoc, Nat.add_comm 1]

section Cuts

variable [Blake3] {record : Record} {verifier : SpendVerifier} {difficultyBits : ℕ}

namespace Record

theorem judgeAll_append (left right : List TxV1) :
    record.judgeAll verifier difficultyBits (left ++ right) =
      (((record.judgeAll verifier difficultyBits left).1.judgeAll verifier difficultyBits right).1,
        (record.judgeAll verifier difficultyBits left).2 ++
          ((record.judgeAll verifier difficultyBits left).1.judgeAll verifier difficultyBits
            right).2) :=
  Machine.run_append record left right

/-- A sealed checkpoint does not change the verdict of a steady transaction. -/
theorem judge_seal {count : ℕ} {tx : TxV1} (steady : Steady record.height (count + 1) tx)
    (more : 0 < count) {anchor : Anchor} (next : anchor.height = record.height + 1) :
    (record.seal anchor).judge verifier difficultyBits tx =
      record.judge verifier difficultyBits tx := by
  have knows : (record.seal anchor).Knows tx.anchor ↔ record.Knows tx.anchor := by
    have other : tx.anchor ≠ anchor := by
      intro same
      have known := steady.known
      rw [same, next] at known
      omega
    simp only [Knows, «seal», List.mem_append, List.mem_singleton, other, or_false]
    constructor
    · rintro ⟨sealed, current⟩
      exact ⟨sealed, by omega⟩
    · rintro ⟨sealed, current⟩
      have lasting := steady.lasting current
      exact ⟨sealed, by omega⟩
  have lane : (record.seal anchor).Open tx ↔ record.Open tx := by
    refine forall_congr' fun slot => forall_congr' fun used => ?_
    rw [show ((record.seal anchor).height + 1) / epochLength =
      (record.height + 1) / epochLength from steady.epoch_next more used]
    rfl
  have spent : (record.seal anchor).Spent tx ↔ record.Spent tx := Iff.rfl
  simp only [judge, knows, lane, spent]

/-- Judging steady transactions and sealing can change places. -/
theorem judgeAll_seal {count : ℕ} {txs : List TxV1} {anchor : Anchor}
    (more : ∀ tx ∈ txs, 0 < count) (steady : ∀ tx ∈ txs, Steady record.height (count + 1) tx)
    (next : anchor.height = record.height + 1) :
    (record.seal anchor).judgeAll verifier difficultyBits txs =
      ((record.judgeAll verifier difficultyBits txs).1.seal anchor,
        (record.judgeAll verifier difficultyBits txs).2) := by
  induction txs generalizing record with
  | nil => rfl
  | cons tx rest ih =>
      have step : judgeStep verifier difficultyBits (record.seal anchor) tx =
          ((judgeStep verifier difficultyBits record tx).1.seal anchor,
            (judgeStep verifier difficultyBits record tx).2) := by
        simp only [judgeStep, judge_seal (steady tx (List.mem_cons_self ..))
          (more tx (List.mem_cons_self ..)) next]
        split <;> rfl
      have height : (judgeStep verifier difficultyBits record tx).1.height = record.height := by
        simp only [judgeStep]
        split <;> rfl
      have later := @ih (judgeStep verifier difficultyBits record tx).1
        (fun other member => more other (List.mem_cons_of_mem _ member))
        (fun other member => height ▸ steady other (List.mem_cons_of_mem _ member))
        (height ▸ next)
      simp only [judgeAll, Machine.run_cons, step] at later ⊢
      rw [later]

end Record

theorem Ledger.verdicts_concat (self : Ledger) (verifier : SpendVerifier) (batch : List TxV1)
    (tx : TxV1) :
    self.verdicts verifier (batch ++ [tx]) = self.verdicts verifier batch ++
      [(tx, self.verdict verifier (self.stageAll verifier batch).seenThisCheckpoint
        (self.stageAll verifier batch).quota tx)] := by
  rw [verdicts, verdicts, Machine.run_append, List.zip_append (Machine.length_outputs _ _).symm,
    stageAll, stageFrom_eq_run]
  rfl

/-- The verdicts of a batch are those of the record, which then holds what was accepted. -/
theorem Remembers.judgeAll {ledger : Ledger}
    (remembers : Remembers record ledger ∅ ledger.quota) (verifier : SpendVerifier)
    (batch : List TxV1) :
    record.judgeAll verifier ledger.difficultyBits batch =
      (record.extend (acceptedOf (ledger.verdicts verifier batch)),
        (ledger.verdicts verifier batch).map Prod.snd) := by
  induction batch using List.reverseRecOn with
  | nil => simp [Record.judgeAll, Ledger.verdicts, acceptedOf]
  | append_singleton batch tx ih =>
      have judged := (remembers.stageAll verifier batch).verdict_eq verifier tx
      rw [Record.judgeAll_append, ih, ledger.verdicts_concat, judged]
      cases verdict : Record.judge _ verifier ledger.difficultyBits tx with
      | none => simp [Record.judgeAll, Record.judgeStep, verdict]
      | some reason => simp [Record.judgeAll, Record.judgeStep, verdict]

/-- A checkpoint is remembered by sealing what was judged. -/
theorem Remembers.applyCheckpoint {ledger : Ledger}
    (remembers : Remembers record ledger ∅ ledger.quota) (wellSealed : WellSealed ledger)
    (verifier : SpendVerifier) (batch : List TxV1) :
    Remembers ((record.judgeAll verifier ledger.difficultyBits batch).1.seal
        (ledger.applyCheckpoint verifier batch).2.anchor)
      (ledger.applyCheckpoint verifier batch).1 ∅
      (ledger.applyCheckpoint verifier batch).1.quota := by
  have staged := remembers.stageAll verifier batch
  rw [remembers.judgeAll]
  refine ⟨fun anchor => ?_, congrArg (· + 1) remembers.height, fun nf => ?_, fun slot => ?_⟩
  · rw [ledger.applyCheckpoint_anchors_of_wellSealed wellSealed,
      ledger.applyCheckpoint_summary_anchor]
    have current : (ledger.applyCheckpoint verifier batch).1.currentAnchor.height =
        record.height + 1 := congrArg (· + 1) remembers.height
    simp only [Record.Knows, Record.seal, List.mem_append, List.mem_filter, List.mem_singleton,
      Record.extend_sealed, Record.extend_height, decide_eq_true_eq, remembers.knows,
      remembers.height]
    constructor
    · rintro (⟨⟨sealed, known⟩, recent⟩ | rfl)
      · exact ⟨.inl sealed, by unfold anchorWindow at *; omega⟩
      · exact ⟨.inr rfl, by unfold anchorWindow; omega⟩
    · rintro ⟨sealed | rfl, known⟩
      · exact .inl ⟨⟨sealed, by omega⟩, by unfold anchorWindow at *; omega⟩
      · exact .inr rfl
  · have tracks := ledger.tracks_stageAll verifier batch
    have spent := staged.spent nf
    rw [tracks.seen] at spent
    rw [ledger.applyCheckpoint_nullifiers, tracks.nullifiers, Finset.mem_union,
      or_iff_left (Finset.notMem_empty nf)]
    exact spent
  · rw [ledger.applyCheckpoint_quota]
    exact staged.taken slot

theorem verdictsOf_applyCheckpoint (ledger : Ledger) (verifier : SpendVerifier)
    (batch : List TxV1) :
    verdictsOf (batch, (ledger.applyCheckpoint verifier batch).2) =
      (ledger.verdicts verifier batch).map Prod.snd := by
  apply List.ext_getElem?
  intro i
  rw [verdictsOf, List.getElem?_map, List.getElem?_map]
  cases found : batch[i]? with
  | none =>
      have outside := List.getElem?_eq_none_iff.mp found
      rw [List.getElem?_eq_none_iff.mpr (by simpa using outside),
        List.getElem?_eq_none_iff.mpr (by simpa [ledger.length_verdicts] using outside)]
      rfl
  | some tx =>
      have inside := (List.getElem?_eq_some_iff.mp found).1
      rw [List.getElem?_range inside, ledger.getElem?_verdicts verifier found, Option.map_some,
        Option.map_some, ledger.verdictAt_applyCheckpoint verifier found]

/-- A stream that is cut into checkpoints is judged as the record judges the stream. -/
theorem judged_of_cut (verifier : SpendVerifier) (batches : List (List TxV1)) {ledger : Ledger}
    {record : Record}
    (remembers : Remembers record ledger ∅ ledger.quota) (wellSealed : WellSealed ledger)
    (steady : ∀ tx ∈ batches.flatten, Steady record.height batches.length tx) :
    let entries := batches.zip (ledger.run verifier batches).2
    let judged := record.judgeAll verifier ledger.difficultyBits batches.flatten
    entries.flatMap verdictsOf = judged.2 ∧
      record.accepted ++ entries.flatMap acceptedBy = judged.1.accepted := by
  induction batches generalizing ledger record with
  | nil => exact ⟨rfl, List.append_nil _⟩
  | cons batch rest ih =>
      intro entries judged
      have judgedBatch := remembers.judgeAll verifier batch
      have more : ∀ tx ∈ rest.flatten, 0 < rest.length := by
        intro tx member
        obtain ⟨other, inRest, -⟩ := List.mem_flatten.mp member
        exact List.length_pos_of_mem inRest
      have later (tx : TxV1) (member : tx ∈ rest.flatten) :
          Steady record.height (rest.length + 1) tx :=
        steady tx (by simp [List.flatten_cons, member])
      have next := ih (remembers.applyCheckpoint wellSealed verifier batch)
        (Ledger.wellSealed_applyCheckpoint wellSealed verifier batch) (by
          rw [judgedBatch]
          exact fun tx member => (later tx member).next (more tx member))
      have height : (ledger.applyCheckpoint verifier batch).2.anchor.height = record.height + 1 :=
        congrArg (· + 1) remembers.height
      have moved := @Record.judgeAll_seal _
        (record.extend (acceptedOf (ledger.verdicts verifier batch))) verifier
        ledger.difficultyBits _ _ _ more later height
      dsimp only at next
      rw [judgedBatch, Ledger.applyCheckpoint_difficultyBits, moved] at next
      have split : judged = _ := Record.judgeAll_append batch rest.flatten
      rw [judgedBatch] at split
      have first : entries = (batch, (ledger.applyCheckpoint verifier batch).2) ::
          rest.zip ((ledger.applyCheckpoint verifier batch).1.run verifier rest).2 := rfl
      rw [split, first, List.flatMap_cons, List.flatMap_cons, verdictsOf_applyCheckpoint, next.1]
      refine ⟨rfl, ?_⟩
      rw [← List.append_assoc, acceptedBy, Ledger.acceptedTxs_applyCheckpoint]
      exact next.2

/-- A run publishes the nullifiers of what it accepts. -/
theorem run_nullifiers (self : Ledger) (verifier : SpendVerifier) (batches : List (List TxV1)) :
    (self.run verifier batches).1.nullifiers = self.nullifiers ∪
      (nullifiersOf ((batches.zip (self.run verifier batches).2).flatMap acceptedBy)).toFinset := by
  let inv (entries : List (List TxV1 × CheckpointSummary)) (ledger : Ledger) : Prop :=
    ledger.nullifiers = self.nullifiers ∪ (nullifiersOf (entries.flatMap acceptedBy)).toFinset
  have initial : inv [] self := by simp [inv, nullifiersOf]
  have preserved (entries : List (List TxV1 × CheckpointSummary)) (ledger : Ledger)
      (batch : List TxV1) (before : inv entries ledger) :
      inv (entries ++ [(batch, (ledger.applyCheckpoint verifier batch).2)])
        (ledger.applyCheckpoint verifier batch).1 := by
    simp only [inv] at before ⊢
    rw [ledger.applyCheckpoint_nullifiers, before,
      (ledger.tracks_stageAll verifier batch).nullifiers,
      List.flatMap_append, List.flatMap_singleton, acceptedBy, ledger.acceptedTxs_applyCheckpoint,
      nullifiersOf_append, List.toFinset_append, Finset.union_assoc]
  have history := Machine.run_history
    (fun (ledger : Ledger) ordered => ledger.applyCheckpoint verifier ordered) inv preserved initial
    batches
  rwa [List.nil_append] at history

/-- Where a stream of steady transactions is cut into checkpoints does not matter: every
verdict is the one it gets in a single checkpoint, and the same notes are spent. -/
theorem cuts_invisible (emission : EmissionParams) (validators : List ValidatorInfo)
    (difficultyBits : ℕ) (genesisNotes : List (Commitment × UInt64)) (verifier : SpendVerifier)
    (past batches : List (List TxV1)) :
    let ledger := ((Ledger.genesis emission validators difficultyBits genesisNotes).run verifier
      past).1
    (∀ tx ∈ batches.flatten, Steady ledger.height batches.length tx) →
      let cut := ledger.run verifier batches
      let whole := ledger.applyCheckpoint verifier batches.flatten
      (batches.zip cut.2).flatMap verdictsOf = verdictsOf (batches.flatten, whole.2) ∧
      (batches.zip cut.2).flatMap acceptedBy = acceptedBy (batches.flatten, whole.2) ∧
      cut.1.nullifiers = whole.1.nullifiers := by
  intro ledger steady cut whole
  have remembers := remembers_run emission validators difficultyBits genesisNotes verifier past
  have wellSealed : WellSealed ledger :=
    Ledger.wellSealed_run (Ledger.wellSealed_genesis ..) verifier past
  have height : ledger.height = _ := remembers.height
  rw [height] at steady
  have judged := judged_of_cut verifier batches remembers wellSealed steady
  have once := remembers.judgeAll verifier batches.flatten
  dsimp only at judged
  rw [once] at judged
  have accepted : (batches.zip cut.2).flatMap acceptedBy =
      acceptedBy (batches.flatten, whole.2) := by
    rw [acceptedBy, Ledger.acceptedTxs_applyCheckpoint]
    exact List.append_cancel_left judged.2
  refine ⟨judged.1.trans (verdictsOf_applyCheckpoint ..).symm, accepted, ?_⟩
  have single := run_nullifiers ledger verifier [batches.flatten]
  rw [run_nullifiers, accepted]
  simpa [Ledger.run] using single.symm

end Cuts

section Samples

open Reference

/-- Another transaction on the genesis anchor. -/
def otherAgedTx : TxV1 :=
  devTx freshLedger.currentAnchor 3 4 (zeroOutputs encOutputLen encOutputLen) fun _ => .pow ⟨0⟩

/-- Two transactions in one checkpoint or in two. -/
theorem agedTxs_cut :
    let ledger := ((Ledger.genesis sampleEmission [] 0 []).run devVerifier []).1
    (ledger.run devVerifier [[agedTx], [otherAgedTx]]).1.nullifiers =
      (ledger.applyCheckpoint devVerifier [agedTx, otherAgedTx]).1.nullifiers := by
  have steady : ∀ tx ∈ [[agedTx], [otherAgedTx]].flatten,
      Steady ((Ledger.genesis sampleEmission [] 0 []).run devVerifier []).1.height 2 tx := by
    intro tx member
    rcases List.mem_pair.mp member with rfl | rfl
    · exact ⟨Nat.le_refl _, fun _ => by decide +kernel, nofun⟩
    · exact ⟨Nat.le_refl _, fun _ => by decide +kernel, nofun⟩
  exact (cuts_invisible sampleEmission [] 0 [] devVerifier [] [[agedTx], [otherAgedTx]] steady).2.2

end Samples

end ShieldedLedger
