import ShieldedLedger.Node
import ShieldedLedger.State.Contention
import ShieldedLedger.Wallet.Transfers
import ShieldedLedger.Wallet.View

/-!
# Spentness at the node and in its wallets

The ledger spends the nullifiers of accepted transactions.  The node tells its
wallets the nullifiers of all submitted transactions, so a wallet follows the ledger
exactly as long as no rejected transaction names a note that it holds.
-/

namespace ShieldedLedger

/-- The transactions of one call and the other wallets passed to it. -/
structure Call where
  txs : List TxV1
  ahead : List Wallet
  behind : List Wallet

/-- A wallet before and after a call, what it received, and the ledger after the call. -/
structure Served where
  before : Wallet
  received : List NoteRecord
  after : Wallet
  ledger : Ledger

/-- The records held before the call that are still held: those received come after them. -/
def Served.kept (served : Served) : List NoteRecord :=
  served.after.unspent.rdrop served.received.length

section Runs

variable [Blake3]

/-- The call drops a held record exactly when the ledger holds its nullifier. -/
def Served.Agrees (served : Served) : Prop :=
  ∀ record ∈ served.before.unspent,
    record ∉ served.kept ↔ served.before.nullifierOf record ∈ served.ledger.nullifiers

theorem mem_nullifiersOf_of_accepted {ledger : Ledger} {verifier : SpendVerifier}
    {txs : List TxV1} {nf : Nullifier}
    (spent : nf ∈ nullifiersOf (acceptedOf (ledger.verdicts verifier txs))) :
    nf ∈ nullifiersOf txs := by
  obtain ⟨i, tx, found, names, -⟩ := (ledger.mem_nullifiersOf_acceptedOf verifier).mp spent
  exact List.mem_flatMap.mpr ⟨tx, List.mem_of_getElem? found, names⟩

variable [Ciphers]

/-- Receipts append what they offer. -/
theorem Wallet.handleAll_receive (self : Wallet) (offers : List (EncryptedOutput × ℕ)) :
    self.handleAll (offers.map fun offer => .receive offer.1 offer.2) =
      { self with unspent := self.unspent ++
          (offers.map fun offer => Event.receive offer.1 offer.2).flatMap self.offered } := by
  induction offers generalizing self with
  | nil => simp [handleAll]
  | cons offer rest ih =>
      have step : self.handle (.receive offer.1 offer.2) = { self with
          unspent := self.unspent ++ self.offered (.receive offer.1 offer.2) } :=
        self.tryReceive_fst offer.1 offer.2
      have tail := ih { self with
        unspent := self.unspent ++ self.offered (.receive offer.1 offer.2) }
      rw [List.map_cons, handleAll, List.foldl_cons, step, ← handleAll, tail, List.flatMap_cons,
        ← List.append_assoc]
      rfl

namespace Demo

/-- What a call tells every wallet. -/
def told (self : Demo) (txs : List TxV1) : List Event :=
  .observe (nullifiersOf txs) ::
    ((self.ledger.applyCheckpoint devVerifier txs).2.offers txs).map fun offer =>
      .receive offer.1 offer.2

/-- A call serves every wallet alone. -/
theorem wallets_checkpoint (self : Demo) (txs : List TxV1) (wallets : List Wallet) :
    (self.checkpoint txs wallets).2.1 = wallets.map fun w => w.handleAll (self.told txs) := by
  have served (offers : List (EncryptedOutput × ℕ)) (wallets : List Wallet) :
      offers.foldl (fun wallets offer => wallets.map fun w => (w.tryReceive offer.1 offer.2).1)
          wallets =
        wallets.map fun w => w.handleAll (offers.map fun offer => .receive offer.1 offer.2) := by
    induction offers generalizing wallets with
    | nil => simp [Wallet.handleAll]
    | cons offer rest ih =>
        rw [List.foldl_cons, ih, List.map_map]
        rfl
  rw [checkpoint]
  simp only
  rw [served, List.map_map]
  rfl

/-- Serve one wallet among others. -/
def serve (state : Demo × Wallet) (call : Call) : (Demo × Wallet) × Served :=
  let (demo, wallets, _) := state.1.checkpoint call.txs (call.ahead ++ state.2 :: call.behind)
  let after := (wallets[call.ahead.length]?).getD state.2
  ((demo, after), ⟨state.2, (state.1.told call.txs).flatMap state.2.offered, after, demo.ledger⟩)

/-- A nullifier of a held record that the wallet has seen, or that the call names, is spent
before the call or named by a standing transaction of the call. -/
def HeldStand (state : Demo × Wallet) (call : Call) : Prop :=
  ∀ record ∈ state.2.unspent,
    state.2.nullifierOf record ∈ state.2.seenNullifiers ∨
        state.2.nullifierOf record ∈ nullifiersOf call.txs →
      state.2.nullifierOf record ∈ state.1.ledger.nullifiers ∨
        ∃ i tx, call.txs[i]? = some tx ∧ state.2.nullifierOf record ∈ tx.nullifiers.toList ∧
          state.1.ledger.Stands devVerifier call.txs i

theorem serve_wallet (state : Demo × Wallet) (call : Call) :
    (serve state call).1.2 = state.2.handleAll (state.1.told call.txs) := by
  simp [serve, wallets_checkpoint]

theorem handleAll_told (self : Demo) (txs : List TxV1) (wallet : Wallet) :
    wallet.handleAll (self.told txs) =
      { wallet.observeNullifiers (nullifiersOf txs) with
        unspent := (wallet.observeNullifiers (nullifiersOf txs)).unspent ++
          (self.told txs).flatMap wallet.offered } := by
  rw [told, Wallet.handleAll, List.foldl_cons, ← Wallet.handleAll, Wallet.handle,
    Wallet.handleAll_receive]
  rfl

/-- A call spends the nullifiers of the accepted transactions. -/
theorem mem_nullifiers_serve {state : Demo × Wallet} {call : Call} {nf : Nullifier} :
    nf ∈ (serve state call).1.1.ledger.nullifiers ↔ nf ∈ state.1.ledger.nullifiers ∨
      nf ∈ nullifiersOf (acceptedOf (state.1.ledger.verdicts devVerifier call.txs)) := by
  change nf ∈ (state.1.ledger.applyCheckpoint devVerifier call.txs).1.nullifiers ↔ _
  rw [Ledger.applyCheckpoint_nullifiers,
    (state.1.ledger.tracks_stageAll devVerifier call.txs).nullifiers, Finset.mem_union,
    List.mem_toFinset]

theorem seen_serve {state : Demo × Wallet} {call : Call} {nf : Nullifier} :
    nf ∈ (serve state call).1.2.seenNullifiers ↔
      nf ∈ state.2.seenNullifiers ∨ nf ∈ nullifiersOf call.txs := by
  rw [serve_wallet, handleAll_told]
  simp [Wallet.observeNullifiers]

/-- A record is kept when its nullifier has not been seen. -/
theorem mem_kept_serve {state : Demo × Wallet} {call : Call} {record : NoteRecord} :
    record ∈ (serve state call).2.kept ↔ record ∈ state.2.unspent ∧
      state.2.nullifierOf record ∉ (serve state call).1.2.seenNullifiers := by
  have after : (serve state call).2.after = state.2.handleAll (state.1.told call.txs) :=
    serve_wallet state call
  have received : (serve state call).2.received =
      (state.1.told call.txs).flatMap state.2.offered := rfl
  rw [Served.kept, received, after, serve_wallet, handleAll_told, List.rdrop_append_length]
  simp [Wallet.observeNullifiers, Wallet.nullifierOf]

/-- The wallet has seen every nullifier the ledger has spent. -/
def Informed (state : Demo × Wallet) : Prop :=
  state.1.ledger.nullifiers ⊆ state.2.seenNullifiers

theorem informed_serve {state : Demo × Wallet} (informed : Informed state) (call : Call) :
    Informed (serve state call).1 := by
  intro nf spent
  rw [seen_serve]
  cases mem_nullifiers_serve.mp spent with
  | inl earlier => exact .inl (informed earlier)
  | inr accepted => exact .inr (mem_nullifiersOf_of_accepted accepted)

/-- An informed wallet agrees with the ledger on a call exactly when what names its records
stands. -/
theorem agrees_serve_iff {state : Demo × Wallet} (informed : Informed state) (call : Call) :
    (serve state call).2.Agrees ↔ HeldStand state call := by
  have dropped {record : NoteRecord} (held : record ∈ state.2.unspent) :
      record ∉ (serve state call).2.kept ↔
        state.2.nullifierOf record ∈ (serve state call).1.2.seenNullifiers := by
    rw [mem_kept_serve]
    simp [held]
  have spent {nf : Nullifier} : nf ∈ (serve state call).1.1.ledger.nullifiers ↔
      nf ∈ state.1.ledger.nullifiers ∨ ∃ i tx, call.txs[i]? = some tx ∧
        nf ∈ tx.nullifiers.toList ∧ state.1.ledger.Stands devVerifier call.txs i := by
    rw [mem_nullifiers_serve, Ledger.mem_nullifiersOf_acceptedOf]
  constructor
  · intro agrees record held named
    have gone := (dropped held).mpr (seen_serve.mpr named)
    exact spent.mp ((agrees record held).mp gone)
  · intro stand record held
    constructor
    · intro gone
      exact spent.mpr (stand record held (seen_serve.mp ((dropped held).mp gone)))
    · intro spends
      exact (dropped held).mpr (informed_serve informed call spends)

/-- In a run from genesis, every call drops exactly the held records the ledger has spent
when in every call what names a held record stands, and in no other run. -/
theorem spentness_agrees_iff (emission : EmissionParams) (validators : List ValidatorInfo)
    (difficultyBits : ℕ) (genesisNotes : List (Commitment × UInt64)) (genesisSupply : UInt64)
    (wallet : Wallet) (calls : List Call) :
    (∀ served ∈ (Machine.run serve
        (⟨Ledger.genesis emission validators difficultyBits genesisNotes, genesisSupply⟩, wallet)
        calls).2, served.Agrees) ↔
      Machine.Along serve HeldStand
        (⟨Ledger.genesis emission validators difficultyBits genesisNotes, genesisSupply⟩, wallet)
        calls := by
  exact Machine.forall_outputs_iff Informed
    (fun state call informed (_ : True) => informed_serve informed call)
    (fun state call informed _ => agrees_serve_iff informed call)
    (Finset.empty_subset _) (Machine.along_of_forall (fun _ _ _ => trivial) _)

/-- A single call from genesis. -/
theorem heldStand_of_run {emission : EmissionParams} {validators : List ValidatorInfo}
    {difficultyBits : ℕ} {genesisNotes : List (Commitment × UInt64)} {genesisSupply : UInt64}
    {wallet : Wallet} {call : Call}
    (agree : ∀ served ∈ (Machine.run serve
      (⟨Ledger.genesis emission validators difficultyBits genesisNotes, genesisSupply⟩, wallet)
      [call]).2, served.Agrees) :
    HeldStand
      (⟨Ledger.genesis emission validators difficultyBits genesisNotes, genesisSupply⟩, wallet)
      call :=
  (agrees_serve_iff (Finset.empty_subset _) call).mp (agree _ (List.mem_singleton.mpr rfl))

end Demo

end Runs

section Samples

open Reference

/-- The sample spend against an anchor that was never sealed. -/
def unanchoredTx : TxV1 := { sampleTx with anchor := ⟨1, sampleTree.root⟩ }

/-- The wallet drops the note of its own rejected transfer, which the ledger has not
spent. -/
theorem rejected_transfer_drops_note :
    ¬∀ (_ : Blake3) (_ : Ciphers) (emission : EmissionParams) (validators : List ValidatorInfo)
      (difficultyBits : ℕ) (genesisNotes : List (Commitment × UInt64)) (genesisSupply : UInt64)
      (wallet : Wallet) (calls : List Call),
      ∀ served ∈ (Machine.run Demo.serve
        (⟨Ledger.genesis emission validators difficultyBits genesisNotes, genesisSupply⟩, wallet)
        calls).2, served.Agrees := by
  intro claim
  have stand := Demo.heldStand_of_run (claim Reference.blake3 Reference.ciphers sampleEmission
    sampleValidators 0 ([sampleNote].map fun note => (note.commitment, note.value))
    sampleNote.value sampleWallet [⟨[unanchoredTx], [], []⟩])
  have named : sampleWallet.nullifierOf ⟨sampleNote, 0⟩ ∈ nullifiersOf [unanchoredTx] := by
    decide +kernel
  have unspent : sampleWallet.nullifierOf ⟨sampleNote, 0⟩ ∉ sampleLedger.nullifiers := by
    decide +kernel
  have unanchored : sampleLedger.anchorValid unanchoredTx.anchor = false := by
    decide +kernel
  rcases stand ⟨sampleNote, 0⟩ (List.mem_singleton.mpr rfl) (.inr named) with spent | standing
  · exact unspent spent
  · obtain ⟨i, tx, found, -, stands⟩ := standing
    rw [Ledger.Stands] at stands
    obtain ⟨tx', found', admissible, -⟩ := stands
    obtain rfl := Option.some.inj (found.symm.trans found')
    obtain rfl := List.mem_singleton.mp (List.mem_of_getElem? found)
    exact Bool.false_ne_true (unanchored.symm.trans admissible.anchored)

end Samples

end ShieldedLedger
