import ShieldedLedger.Reference.Ciphers
import ShieldedLedger.State.Anchors
import ShieldedLedger.Wallet.Building

/-!
# Runs of transfers

Wallets that are in step with the ledger pay one another, one transfer in each
checkpoint.  The selected notes are unspent, but the padding dummies are the
same for every transfer of a wallet, so a transfer is accepted exactly when the
dummies it is padded with have not been used yet.
-/

namespace ShieldedLedger

/-- A transfer with the wallet that makes it. -/
structure Transfer where
  wallet : Wallet
  recipient : Address
  amount : UInt64
  rngSeed : Bytes32
  tx : TxV1

section Runs

variable [Blake3]

/-- The wallet has observed exactly the spent nullifiers and holds unspent notes of
its own, each received once and at the position of its commitment. -/
structure Synced (wallet : Wallet) (ledger : Ledger) : Prop where
  observed : wallet.seenNullifiers = ledger.nullifiers
  unspent : ∀ record ∈ wallet.unspent, record.note.nullifier wallet.sk.nk ∉ ledger.nullifiers
  owned : ∀ record ∈ wallet.unspent, record.note.addrTag = wallet.sk.addrTag
  backed : ∀ record ∈ wallet.unspent,
    ledger.tree.leaves[record.position]? = some record.note.commitment.bytes
  once : (wallet.unspent.map NoteRecord.position).Nodup

/-- A wallet stays in step when it adds its new notes and observes the nullifiers of
a checkpoint. -/
theorem Synced.observe {wallet : Wallet} {ledger : Ledger} (synced : Synced wallet ledger)
    (verifier : SpendVerifier) (batch : List TxV1) {received : List NoteRecord}
    (owned : ∀ record ∈ received, record.note.addrTag = wallet.sk.addrTag)
    (backed : ∀ record ∈ received,
      (ledger.applyCheckpoint verifier batch).1.tree.leaves[record.position]? =
        some record.note.commitment.bytes)
    (once : (received.map NoteRecord.position).Nodup)
    (added : ∀ record ∈ received, ledger.tree.leaves.length ≤ record.position) :
    Synced ({ wallet with unspent := wallet.unspent ++ received }.observeNullifiers
      (nullifiersOf (acceptedOf (ledger.verdicts verifier batch))))
      (ledger.applyCheckpoint verifier batch).1 := by
  have seen : wallet.seenNullifiers ∪
      (nullifiersOf (acceptedOf (ledger.verdicts verifier batch))).toFinset =
        (ledger.applyCheckpoint verifier batch).1.nullifiers := by
    rw [synced.observed, Ledger.applyCheckpoint_nullifiers,
      (ledger.tracks_stageAll verifier batch).nullifiers]
  have kept (record : NoteRecord) (member : record ∈ wallet.unspent) :
      (ledger.applyCheckpoint verifier batch).1.tree.leaves[record.position]? =
        some record.note.commitment.bytes := by
    have found := synced.backed record member
    rw [Ledger.applyCheckpoint_leaves,
      List.getElem?_append_left (List.getElem?_eq_some_iff.mp found).1, found]
  have older (record : NoteRecord) (member : record ∈ wallet.unspent) :
      record.position < ledger.tree.leaves.length :=
    (List.getElem?_eq_some_iff.mp (synced.backed record member)).1
  have positions : ((wallet.unspent ++ received).map NoteRecord.position).Nodup := by
    rw [List.map_append, List.nodup_append]
    refine ⟨synced.once, once, fun left leftMem right rightMem equal => ?_⟩
    obtain ⟨old, oldMem, rfl⟩ := List.mem_map.mp leftMem
    obtain ⟨new, newMem, rfl⟩ := List.mem_map.mp rightMem
    exact absurd (older old oldMem) (not_lt.mpr (equal ▸ added new newMem))
  have each {property : NoteRecord → Prop} (old : ∀ record ∈ wallet.unspent, property record)
      (new : ∀ record ∈ received, property record) (record : NoteRecord)
      (member : record ∈ (wallet.unspent ++ received).filter fun record =>
        decide (record.note.nullifier wallet.sk.nk ∉ wallet.seenNullifiers ∪
          (nullifiersOf (acceptedOf (ledger.verdicts verifier batch))).toFinset)) :
      property record :=
    (List.mem_append.mp (List.mem_of_mem_filter member)).elim (old record) (new record)
  simp only [Wallet.observeNullifiers, Tombstones.foldl_insert_eq_union]
  exact {
    observed := seen
    unspent := fun record member => by
      rw [← seen]
      exact of_decide_eq_true (List.mem_filter.mp member).2
    owned := each synced.owned owned
    backed := each kept backed
    once := positions.sublist (List.filter_sublist.map _) }

/-- The dummies that pad a payment are new to the ledger, and no two inputs of it
share a nullifier. -/
def PadsFresh (ledger : Ledger) (wallet : Wallet) (amount : UInt64) : Prop :=
  ∀ selected, wallet.selectInputs amount = .ok selected →
    (wallet.inputNullifiers selected).Nodup ∧
      ∀ dummyCtr < txInputs - selected.length,
        (dummyInput dummyCtr).note.nullifier wallet.sk.nk ∉ ledger.nullifiers

/-- Apply the transaction of a transfer alone in the next checkpoint. -/
def transferStep (ledger : Ledger) (transfer : Transfer) : Ledger × CheckpointSummary :=
  ledger.applyCheckpoint devVerifier [transfer.tx]

variable [Ciphers]

/-- The wallet is in step with the ledger and has built the transaction against the
current anchor. -/
structure Honest (ledger : Ledger) (transfer : Transfer) : Prop where
  synced : Synced transfer.wallet ledger
  built : transfer.wallet.buildTransfer transfer.recipient transfer.amount ledger.currentAnchor
    ledger.treeWitness transfer.rngSeed = .ok transfer.tx

/-- One honest transfer is accepted exactly when its dummies are fresh. -/
theorem accepted_transferStep_iff {ledger : Ledger} (wellSealed : WellSealed ledger)
    (difficulty : ledger.difficultyBits = 0) {transfer : Transfer}
    (honest : Honest ledger transfer) :
    (transferStep ledger transfer).2.accepted = 1 ↔
      PadsFresh ledger transfer.wallet transfer.amount := by
  obtain ⟨selected, chosen, built⟩ := Wallet.built_of_buildTransfer honest.built
  obtain ⟨older, anchors⟩ := wellSealed.current
  obtain ⟨solution, pow⟩ := built.antispam
  have unspent (record : NoteRecord) (member : record ∈ selected) :
      record.note.nullifier transfer.wallet.sk.nk ∉ ledger.nullifiers :=
    honest.synced.unspent record (Wallet.mem_of_selectInputs chosen member)
  have conflicts : ledger.Conflicts ∅ transfer.tx ↔
      ∃ dummyCtr < txInputs - selected.length,
        (dummyInput dummyCtr).note.nullifier transfer.wallet.sk.nk ∈ ledger.nullifiers := by
    simp only [Ledger.conflicts_empty_iff, built.nullifiers, List.mem_insertionSort,
      Wallet.inputNullifiers, List.mem_append, List.mem_map, List.mem_range]
    constructor
    · rintro ⟨nf, ⟨record, member, rfl⟩ | ⟨dummyCtr, padding, rfl⟩, spent⟩
      · exact absurd spent (unspent record member)
      · exact ⟨dummyCtr, padding, spent⟩
    · rintro ⟨dummyCtr, padding, spent⟩
      exact ⟨_, .inr ⟨dummyCtr, padding, rfl⟩, spent⟩
  rw [transferStep, Ledger.accepted_singleton_iff, Ledger.verdict_eq_none_iff]
  constructor
  · rintro ⟨-, valid, fresh, -⟩ selected' chosen'
    obtain rfl := Except.ok.inj (chosen.symm.trans chosen')
    rw [difficulty, built.valid_iff] at valid
    refine ⟨valid, fun dummyCtr padding spent => fresh (conflicts.mpr ⟨dummyCtr, padding, spent⟩)⟩
  · intro padsFresh
    obtain ⟨distinct, fresh⟩ := padsFresh selected chosen
    exact {
      anchor := by
        rw [built.anchor, anchors]
        exact List.mem_append_right _ (List.mem_singleton_self _)
      valid := by
        rw [difficulty, built.valid_iff]
        exact distinct
      fresh := fun conflict => by
        obtain ⟨dummyCtr, padding, spent⟩ := conflicts.mp conflict
        exact fresh dummyCtr padding spent
      lane := by
        rw [pow]
        rfl }

/-- In a run of honest transfers over a reachable ledger all of them are accepted
exactly when every step pads with fresh dummies. -/
theorem transfers_accepted_iff {emission : EmissionParams} {validators : List ValidatorInfo}
    {genesisNotes : List (Commitment × UInt64)} {verifier : SpendVerifier}
    {past : List (List TxV1)} {ledger : Ledger}
    (reached : ledger =
      ((Ledger.genesis emission validators 0 genesisNotes).run verifier past).1)
    {transfers : List Transfer} (honest : Machine.Along transferStep Honest ledger transfers) :
    (∀ summary ∈ (Machine.run transferStep ledger transfers).2, summary.accepted = 1) ↔
      Machine.Along transferStep
        (fun ledger transfer => PadsFresh ledger transfer.wallet transfer.amount)
        ledger transfers := by
  have initial : WellSealed ledger ∧ ledger.difficultyBits = 0 := by
    rw [reached]
    exact ⟨Ledger.wellSealed_run (Ledger.wellSealed_genesis ..) verifier past,
      by rw [Ledger.run_difficultyBits, Ledger.genesis_eq]⟩
  refine Machine.forall_outputs_iff (fun ledger =>
    WellSealed ledger ∧ ledger.difficultyBits = 0) (fun ledger transfer inv _ => ?_)
    (fun ledger transfer inv honest => accepted_transferStep_iff inv.1 inv.2 honest) initial honest
  exact ⟨Ledger.wellSealed_applyCheckpoint inv.1 .., by simp [transferStep, inv.2]⟩

end Runs

section Samples

open Reference

def sampleWallet : Wallet := ⟨sampleKey, [⟨sampleNote, 0⟩], ∅⟩

/-- A payment of one unit to the recipient over a ledger. -/
def paymentOver (ledger : Ledger) (wallet : Wallet) (seed : UInt8) : Transfer where
  wallet := wallet
  recipient := recipientKey.address
  amount := 1
  rngSeed := Bytes.filled 32 seed
  tx := match wallet.buildTransfer recipientKey.address 1 ledger.currentAnchor ledger.treeWitness
      (Bytes.filled 32 seed) with
    | .ok tx => tx
    | .error _ => sampleTx

def firstPayment : Transfer := paymentOver sampleLedger sampleWallet 1

def ledgerAfter : Ledger := (transferStep sampleLedger firstPayment).1

/-- The sample wallet after the first payment: it has received its change and observed
the spent nullifiers. -/
def walletAfter : Wallet :=
  ((sampleWallet.tryReceive (firstPayment.tx.encOutputs.get 1) 2).1).observeNullifiers
    firstPayment.tx.nullifiers.toList

def secondPayment : Transfer := paymentOver ledgerAfter walletAfter 2

theorem honest_paymentOver {ledger : Ledger} {wallet : Wallet} {seed : UInt8}
    (synced : Synced wallet ledger)
    (returned : (wallet.buildTransfer recipientKey.address 1 ledger.currentAnchor
      ledger.treeWitness (Bytes.filled 32 seed)).isOk = true) :
    Honest ledger (paymentOver ledger wallet seed) := by
  refine ⟨synced, ?_⟩
  simp only [paymentOver]
  split
  · assumption
  · rename_i failed
    rw [failed] at returned
    cases returned

theorem honest_firstPayment : Honest sampleLedger firstPayment := by
  refine honest_paymentOver ⟨rfl, ?_, ?_, ?_, List.nodup_singleton _⟩ (by decide +kernel)
  all_goals
    intro record member
    obtain rfl := List.mem_singleton.mp member
  · exact Finset.notMem_empty _
  · rfl
  · decide +kernel

/-- A first payment is accepted: its dummy is new to the ledger. -/
theorem firstPayment_accepted : (transferStep sampleLedger firstPayment).2.accepted = 1 := by
  have reached : sampleLedger = ((Ledger.genesis sampleEmission sampleValidators 0
      ([sampleNote].map fun note => (note.commitment, note.value))).run devVerifier []).1 := rfl
  have honest : Machine.Along transferStep Honest sampleLedger [firstPayment] :=
    ⟨honest_firstPayment, trivial⟩
  refine (transfers_accepted_iff reached honest).mpr ⟨?_, trivial⟩ _ (List.mem_singleton_self _)
  intro selected chosen
  have one : sampleWallet.selectInputs 1 = .ok [⟨sampleNote, 0⟩] := by decide +kernel
  obtain rfl := Except.ok.inj (one.symm.trans chosen)
  exact ⟨by decide +kernel, fun _ _ => Finset.notMem_empty _⟩

/-- After the first payment the wallet is in step with the ledger and builds a second
one, which the ledger rejects. -/
theorem secondPayment_facts :
    (walletAfter.seenNullifiers = ledgerAfter.nullifiers ∧
      (∀ record ∈ walletAfter.unspent,
        record.note.nullifier walletAfter.sk.nk ∉ ledgerAfter.nullifiers ∧
        record.note.addrTag = walletAfter.sk.addrTag ∧
        ledgerAfter.tree.leaves[record.position]? = some record.note.commitment.bytes) ∧
      (walletAfter.unspent.map NoteRecord.position).Nodup) ∧
    (walletAfter.buildTransfer recipientKey.address 1 ledgerAfter.currentAnchor
      ledgerAfter.treeWitness (Bytes.filled 32 2)).isOk = true ∧
    (transferStep ledgerAfter secondPayment).2.accepted ≠ 1 := by
  decide +kernel

/-- The second payment of a wallet that pays with one note each time repeats the
dummy nullifier of the first and is rejected. -/
theorem second_payment_rejected :
    ¬∀ (_ : Blake3) (_ : Ciphers) (emission : EmissionParams) (validators : List ValidatorInfo)
      (genesisNotes : List (Commitment × UInt64)) (verifier : SpendVerifier)
      (past : List (List TxV1)) (ledger : Ledger) (transfers : List Transfer),
      ledger = ((Ledger.genesis emission validators 0 genesisNotes).run verifier past).1 →
      (transfers.map Transfer.rngSeed).Nodup →
      Machine.Along transferStep Honest ledger transfers →
      ∀ summary ∈ (Machine.run transferStep ledger transfers).2, summary.accepted = 1 := by
  intro claim
  obtain ⟨⟨observed, records, once⟩, returned, rejected⟩ := secondPayment_facts
  have honest : Honest ledgerAfter secondPayment :=
    honest_paymentOver ⟨observed, fun record member => (records record member).1,
      fun record member => (records record member).2.1,
      fun record member => (records record member).2.2, once⟩ returned
  have accepted := claim Reference.blake3 Reference.ciphers sampleEmission sampleValidators
    ([sampleNote].map fun note => (note.commitment, note.value)) devVerifier [] sampleLedger
    [firstPayment, secondPayment] rfl (by decide) ⟨honest_firstPayment, honest, trivial⟩
  exact rejected (accepted _ (List.mem_cons_of_mem _ (List.mem_cons_self ..)))

end Samples

end ShieldedLedger
