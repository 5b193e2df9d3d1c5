import ShieldedLedger.General.Accounts
import ShieldedLedger.Wallet.Holdings
import ShieldedLedger.Wallet.Sums

/-!
# Wallets as a book of accounts

Wallets pay one another through the node, one transfer in each checkpoint.  What the ledger
sees of a payment are nullifiers, commitments and ciphertexts; what the wallets show is a
plain book of accounts in which the amount has moved from the payer to the payee.
-/

namespace ShieldedLedger

/-- One wallet of a list pays another. -/
structure PaymentOrder where
  payer : ℕ
  payee : ℕ
  amount : UInt64
  rngSeed : Bytes32

def PaymentOrder.payment (order : PaymentOrder) : Accounts.Payment ℕ :=
  ⟨order.payer, order.payee, order.amount.toNat⟩

section Runs

variable [Blake3] [Ciphers]

namespace Demo

/-- The payer builds a transfer against the current anchor, with the witnesses of the ledger,
and the node applies it in the next checkpoint and serves all wallets. -/
def pay (state : Demo × List Wallet) (order : PaymentOrder) :
    (Demo × List Wallet) × Except TransferFailure String :=
  match state.2[order.payer]?, state.2[order.payee]? with
  | some payer, some payee =>
      match payer.buildTransfer payee.address order.amount state.1.anchor state.1.ledger.treeWitness
          order.rngSeed with
      | .error failure => (state, .error failure)
      | .ok tx =>
          let (demo, wallets, line) := state.1.checkpoint [tx] state.2
          ((demo, wallets), .ok line)
  | _, _ => (state, .error .panicked)

end Demo

/-! ## What one payment tells the wallets -/

/-- What a wallet records of an output it opens. -/
def recordsOf (note : Note) (position : ℕ) : List NoteRecord :=
  if note.value > 0 then [⟨note, position⟩] else []

omit [Blake3] [Ciphers] in
theorem mem_recordsOf {note : Note} {position : ℕ} {record : NoteRecord}
    (member : record ∈ recordsOf note position) : record = ⟨note, position⟩ := by
  rw [recordsOf] at member
  split at member
  · exact List.mem_singleton.mp member
  · cases member

omit [Blake3] [Ciphers] in
theorem recordSum_recordsOf (note : Note) (position : ℕ) :
    recordSum (recordsOf note position) = note.value.toNat := by
  rw [recordsOf]
  split
  · exact recordSum_singleton _
  · next worthless =>
    have zero : note.value.toNat = 0 := by
      rw [gt_iff_lt, UInt64.lt_iff_toNat_lt, UInt64.toNat_zero] at worthless
      exact Nat.eq_zero_of_not_pos worthless
    rw [zero]
    rfl

theorem offered_of_opened {wallet : Wallet} {enc : EncryptedOutput} {note : Note}
    (opened : tryDecrypt enc wallet.sk.incomingViewingKey = some note) (position : ℕ) :
    wallet.offered (.receive enc position) = recordsOf note position := by
  rw [Wallet.offered, opened]
  rfl

theorem offered_of_closed {wallet : Wallet} {enc : EncryptedOutput}
    (closed : tryDecrypt enc wallet.sk.incomingViewingKey = none) (position : ℕ) :
    wallet.offered (.receive enc position) = [] := by
  rw [Wallet.offered, closed]

omit [Ciphers] in
/-- An accepted transaction is told with its nullifiers and both outputs. -/
theorem Demo.told_accepted (self : Demo) {tx : TxV1}
    (accepted : acceptedOf (self.ledger.verdicts devVerifier [tx]) = [tx]) :
    self.told [tx] = [.observe (nullifiersOf [tx]),
      .receive (tx.encOutputs.get 0) self.ledger.tree.len,
      .receive (tx.encOutputs.get 1) (self.ledger.tree.len + 1)] := by
  have outputs : tx.encOutputs.toList = [tx.encOutputs.get 0, tx.encOutputs.get 1] := by
    obtain ⟨_, _, _, ⟨outputs, two⟩, _⟩ := tx
    match outputs, two with
    | [_, _], _ => rfl
  have offers := self.ledger.offers_applyCheckpoint devVerifier [tx]
  simp only [accepted, List.flatMap_singleton, outputs, List.length_singleton, Nat.mul_one]
    at offers
  rw [Demo.told, offers]
  rfl

omit [Ciphers] in
/-- Receipts that the observation does not name can be added before it. -/
theorem Wallet.observe_append {wallet : Wallet} {nullifiers : List Nullifier}
    {received : List NoteRecord}
    (fresh : ∀ record ∈ received,
      wallet.nullifierOf record ∉ wallet.seenNullifiers ∪ nullifiers.toFinset) :
    { wallet with unspent := wallet.unspent ++ received }.observeNullifiers nullifiers =
      { wallet.observeNullifiers nullifiers with
        unspent := (wallet.observeNullifiers nullifiers).unspent ++ received } := by
  have kept : received.filter (fun record => decide (record.note.nullifier wallet.sk.nk ∉
      wallet.seenNullifiers ∪ nullifiers.toFinset)) = received :=
    List.filter_eq_self.mpr fun record member => decide_eq_true (fresh record member)
  simp only [observeNullifiers, Tombstones.foldl_insert_eq_union, List.filter_append, kept]

/-! ## Reconciled states -/

/-- Nobody but the addressees opens the ciphertexts of a payment, and its hash queries are
among those that do not collide. -/
structure Unlinked (queries : Set Query) (state : Demo × List Wallet) (order : PaymentOrder)
    (payer payee : Wallet) (tx : TxV1) : Prop where
  payment_nonce : rhoTransferQuery (tx.nullifiers.get 0) 0 ∈ queries
  change_nonce : rhoTransferQuery (tx.nullifiers.get 0) 1 ∈ queries
  payment_asked : nullifierQuery payee.sk.nk (rhoTransfer (tx.nullifiers.get 0) 0) ∈ queries
  change_asked : nullifierQuery payer.sk.nk (rhoTransfer (tx.nullifiers.get 0) 1) ∈ queries
  payment_sealed : ∀ i wallet, state.2[i]? = some wallet → i ≠ order.payee →
    tryDecrypt (tx.encOutputs.get 0) wallet.sk.incomingViewingKey = none
  change_sealed : ∀ i wallet, state.2[i]? = some wallet → i ≠ order.payer →
    tryDecrypt (tx.encOutputs.get 1) wallet.sk.incomingViewingKey = none

/-- What a payment that is built needs beside funds: it is padded with dummies that are new
to the ledger and reveals nothing to others. -/
structure Fair (queries : Set Query) (state : Demo × List Wallet) (order : PaymentOrder)
    (payer payee : Wallet) (tx : TxV1) : Prop extends
    Unlinked queries state order payer payee tx where
  pads : PadsFresh state.1.ledger payer order.amount

/-- The payment is fair if it is built. -/
def FairOrder (queries : Set Query) (state : Demo × List Wallet) (order : PaymentOrder) : Prop :=
  ∀ payer payee tx, state.2[order.payer]? = some payer → state.2[order.payee]? = some payee →
    payer.buildTransfer payee.address order.amount state.1.anchor state.1.ledger.treeWitness
      order.rngSeed = .ok tx →
    Fair queries state order payer payee tx

omit [Ciphers] in
/-- Wallets with different keys, in step with the ledger, that hold what the book says. -/
structure Reconciled (queries : Set Query) (state : Demo × List Wallet) (book : ℕ → ℕ) : Prop where
  wellSealed : WellSealed state.1.ledger
  difficulty : state.1.ledger.difficultyBits = 0
  dummies : ∀ dummyCtr < txInputs, dummyRhoQuery dummyCtr ∈ queries
  traced : ∀ nf ∈ state.1.ledger.nullifiers, Traced queries state.1.ledger.nullifiers nf
  inStep : ∀ wallet ∈ state.2, InStep queries state.1.ledger wallet
  keys : (state.2.map fun wallet => wallet.sk.nk).Nodup
  balances : ∀ i wallet, state.2[i]? = some wallet → recordSum wallet.unspent = book i
  fits : ∑ i ∈ Finset.range state.2.length, book i < 2 ^ 64

/-- A built payment in its state: who pays whom, out of which notes, and that it is fair. -/
structure Settles (queries : Set Query) (state : Demo × List Wallet) (order : PaymentOrder)
    (payer payee : Wallet) (selected : List NoteRecord) (tx : TxV1) : Prop where
  payerAt : state.2[order.payer]? = some payer
  payeeAt : state.2[order.payee]? = some payee
  chosen : payer.selectInputs order.amount = .ok selected
  distinct : selected.Subperm payer.unspent
  covers : order.amount.toNat ≤ recordSum selected
  built : payer.buildTransfer payee.address order.amount state.1.anchor state.1.ledger.treeWitness
    order.rngSeed = .ok tx
  fair : Fair queries state order payer payee tx

namespace Settles

variable {queries : Set Query} {state : Demo × List Wallet} {book : ℕ → ℕ} {order : PaymentOrder}
  {payer payee : Wallet} {selected : List NoteRecord} {tx : TxV1}

/-- The ledger after the checkpoint. -/
def next (state : Demo × List Wallet) (tx : TxV1) : Ledger :=
  (state.1.ledger.applyCheckpoint devVerifier [tx]).1

theorem held (settles : Settles queries state order payer payee selected tx) :
    ∀ record ∈ selected, record ∈ payer.unspent :=
  fun _ member => settles.distinct.subset member

theorem mem_nullifiers_iff (settles : Settles queries state order payer payee selected tx)
    {nf : Nullifier} : nf ∈ nullifiersOf [tx] ↔ nf ∈ payer.inputNullifiers selected := by
  obtain ⟨selected', chosen', built⟩ := Wallet.built_of_buildTransfer settles.built
  obtain rfl := Except.ok.inj (settles.chosen.symm.trans chosen')
  rw [nullifiersOf, List.flatMap_singleton, built.nullifiers, List.mem_insertionSort]

/-- The payment is accepted, and its nullifiers are new to the ledger. -/
theorem accepted (settles : Settles queries state order payer payee selected tx)
    (reconciled : Reconciled queries state book) :
    acceptedOf (state.1.ledger.verdicts devVerifier [tx]) = [tx] ∧
      ∀ nf ∈ nullifiersOf [tx], nf ∉ state.1.ledger.nullifiers := by
  have honest : Honest state.1.ledger
      ⟨payer, payee.address, order.amount, order.rngSeed, tx⟩ :=
    ⟨(reconciled.inStep payer (List.mem_of_getElem? settles.payerAt)).synced, settles.built⟩
  have alone := (accepted_transferStep_iff reconciled.wellSealed reconciled.difficulty honest).mpr
    settles.fair.pads
  rw [transferStep, Ledger.accepted_singleton_iff] at alone
  have verdicts : state.1.ledger.verdicts devVerifier [tx] = [(tx, none)] :=
    congrArg (fun verdict => [(tx, verdict)]) alone
  refine ⟨by rw [verdicts]; rfl, fun nf named spent => ?_⟩
  rw [nullifiersOf, List.flatMap_singleton] at named
  exact ((state.1.ledger.verdict_eq_none_iff ..).mp alone).fresh ⟨nf, named, .inl spent⟩

theorem nullifiers_next (settles : Settles queries state order payer payee selected tx)
    (reconciled : Reconciled queries state book) :
    (next state tx).nullifiers = state.1.ledger.nullifiers ∪ (nullifiersOf [tx]).toFinset := by
  rw [next, Ledger.applyCheckpoint_nullifiers,
    (state.1.ledger.tracks_stageAll devVerifier [tx]).nullifiers, (settles.accepted reconciled).1]

omit [Blake3] [Ciphers] in
theorem first_mem (tx : TxV1) : tx.nullifiers.get 0 ∈ nullifiersOf [tx] := by
  rw [nullifiersOf, List.flatMap_singleton, tx.nullifiers_toList]
  exact List.mem_cons_self ..

theorem traced_next (settles : Settles queries state order payer payee selected tx)
    (reconciled : Reconciled queries state book) (free : CollisionFree queries) :
    ∀ nf ∈ (next state tx).nullifiers, Traced queries state.1.ledger.nullifiers nf := by
  intro nf spent
  rw [settles.nullifiers_next reconciled, Finset.mem_union, List.mem_toFinset] at spent
  rcases spent with earlier | named
  · exact reconciled.traced nf earlier
  · exact (reconciled.inStep payer (List.mem_of_getElem? settles.payerAt)).traced_inputNullifiers
      free reconciled.dummies settles.held (settles.mem_nullifiers_iff.mp named)

/-! The notes that a wallet is paid or gets back. -/

/-- What the wallet at an index of the list receives. -/
def received (state : Demo × List Wallet) (order : PaymentOrder) (payer payee : Wallet)
    (selected : List NoteRecord) (tx : TxV1) (i : ℕ) : List NoteRecord :=
  (if i = order.payee then
    recordsOf (Wallet.paymentNote payee.address order.amount order.rngSeed tx)
      state.1.ledger.tree.len else []) ++
  (if i = order.payer then
    recordsOf (payer.changeNote order.amount order.rngSeed selected tx)
      (state.1.ledger.tree.len + 1) else [])

theorem offered_told (settles : Settles queries state order payer payee selected tx)
    (reconciled : Reconciled queries state book) (agree : Ciphers.Agree) {i : ℕ} {wallet : Wallet}
    (found : state.2[i]? = some wallet) :
    (state.1.told [tx]).flatMap wallet.offered =
      received state order payer payee selected tx i := by
  have sends := Wallet.sends_of_buildTransfer settles.chosen settles.built
  have payment : wallet.offered (.receive (tx.encOutputs.get 0) state.1.ledger.tree.len) =
      if i = order.payee then
        recordsOf (Wallet.paymentNote payee.address order.amount order.rngSeed tx)
          state.1.ledger.tree.len else [] := by
    by_cases addressed : i = order.payee
    · obtain rfl : payee = wallet := by
        simpa [addressed, settles.payeeAt] using found
      rw [if_pos addressed]
      exact offered_of_opened (opens_of_encryptNote agree sends.payment_letter rfl) _
    · rw [if_neg addressed]
      exact offered_of_closed (settles.fair.payment_sealed i wallet found addressed) _
  have change : wallet.offered (.receive (tx.encOutputs.get 1) (state.1.ledger.tree.len + 1)) =
      if i = order.payer then
        recordsOf (payer.changeNote order.amount order.rngSeed selected tx)
          (state.1.ledger.tree.len + 1) else [] := by
    by_cases addressed : i = order.payer
    · obtain rfl : payer = wallet := by
        simpa [addressed, settles.payerAt] using found
      rw [if_pos addressed]
      exact offered_of_opened (opens_of_encryptNote agree sends.change_letter rfl) _
    · rw [if_neg addressed]
      exact offered_of_closed (settles.fair.change_sealed i wallet found addressed) _
  rw [state.1.told_accepted (settles.accepted reconciled).1]
  simp only [List.flatMap_cons, List.flatMap_nil, Wallet.offered_observe, List.nil_append,
    List.append_nil, payment, change, received]

theorem mem_received {i : ℕ} {record : NoteRecord}
    (member : record ∈ received state order payer payee selected tx i) :
    (i = order.payee ∧ record = ⟨Wallet.paymentNote payee.address order.amount order.rngSeed tx,
      state.1.ledger.tree.len⟩) ∨
    (i = order.payer ∧ record = ⟨payer.changeNote order.amount order.rngSeed selected tx,
      state.1.ledger.tree.len + 1⟩) := by
  rw [received, List.mem_append] at member
  rcases member with payment | change
  · split at payment
    · next addressed => exact .inl ⟨addressed, mem_recordsOf payment⟩
    · cases payment
  · split at change
    · next addressed => exact .inr ⟨addressed, mem_recordsOf change⟩
    · cases change

theorem receipt_of_mem (settles : Settles queries state order payer payee selected tx)
    (reconciled : Reconciled queries state book) {i : ℕ} {wallet : Wallet}
    (found : state.2[i]? = some wallet) {record : NoteRecord}
    (member : record ∈ received state order payer payee selected tx i) :
    Receipt queries (tx.nullifiers.get 0) state.1.ledger (next state tx) wallet record := by
  have sends := Wallet.sends_of_buildTransfer settles.chosen settles.built
  have first : (acceptedOf (state.1.ledger.verdicts devVerifier [tx]))[0]? = some tx := by
    rw [(settles.accepted reconciled).1]
    rfl
  have leaf := state.1.ledger.getElem?_leaves_of_accepted devVerifier [tx] first
  rcases mem_received member with ⟨rfl, rfl⟩ | ⟨rfl, rfl⟩
  · obtain rfl := Option.some.inj (settles.payeeAt.symm.trans found)
    exact {
      owned := rfl
      backed := (leaf 0).trans (congrArg (fun cm => some cm.bytes) sends.payment_commitment)
      added := Nat.le_refl _
      derived := ⟨0, settles.fair.payment_nonce, rfl⟩
      asked := settles.fair.payment_asked }
  · obtain rfl := Option.some.inj (settles.payerAt.symm.trans found)
    exact {
      owned := rfl
      backed := (leaf 1).trans (congrArg (fun cm => some cm.bytes) sends.change_commitment)
      added := Nat.le_succ _
      derived := ⟨1, settles.fair.change_nonce, rfl⟩
      asked := settles.fair.change_asked }

/-- A payment and its change have different positions and nonces. -/
theorem nodup_received {β : Type} (key : NoteRecord → β) {i : ℕ}
    (apart : i = order.payee → i = order.payer →
      key ⟨Wallet.paymentNote payee.address order.amount order.rngSeed tx,
        state.1.ledger.tree.len⟩ ≠
      key ⟨payer.changeNote order.amount order.rngSeed selected tx,
        state.1.ledger.tree.len + 1⟩) :
    ((received state order payer payee selected tx i).map key).Nodup := by
  have single (note : Note) (position : ℕ) : ((recordsOf note position).map key).Nodup := by
    rw [recordsOf]
    split
    · exact List.nodup_singleton _
    · exact List.nodup_nil
  rw [received, List.map_append, List.nodup_append]
  refine ⟨?_, ?_, ?_⟩
  · split
    · exact single _ _
    · exact List.nodup_nil
  · split
    · exact single _ _
    · exact List.nodup_nil
  · intro left leftMem right rightMem same
    obtain ⟨payment, paymentMem, rfl⟩ := List.mem_map.mp leftMem
    obtain ⟨change, changeMem, rfl⟩ := List.mem_map.mp rightMem
    split at paymentMem
    · next payee =>
      split at changeMem
      · next payer =>
        rw [mem_recordsOf paymentMem, mem_recordsOf changeMem] at same
        exact apart payee payer same
      · cases changeMem
    · cases paymentMem

/-- Being served is receiving and then observing, as no receipt is named. -/
theorem handleAll_told (settles : Settles queries state order payer payee selected tx)
    (reconciled : Reconciled queries state book) (agree : Ciphers.Agree)
    (free : CollisionFree queries) {i : ℕ} {wallet : Wallet} (found : state.2[i]? = some wallet) :
    wallet.handleAll (state.1.told [tx]) =
      { wallet with
        unspent := wallet.unspent ++ received state order payer payee selected tx i
      }.observeNullifiers (nullifiersOf [tx]) := by
  have inStep := reconciled.inStep wallet (List.mem_of_getElem? found)
  have unspent := (settles.accepted reconciled).2 _ (first_mem tx)
  rw [Demo.handleAll_told, settles.offered_told reconciled agree found, Wallet.observe_append]
  intro record member
  rw [inStep.synced.observed, ← settles.nullifiers_next reconciled]
  exact InStep.not_spent_of_receipt free unspent (settles.traced_next reconciled free)
    (settles.receipt_of_mem reconciled found member)

theorem inStep_next (settles : Settles queries state order payer payee selected tx)
    (reconciled : Reconciled queries state book) (agree : Ciphers.Agree)
    (free : CollisionFree queries) {i : ℕ} {wallet : Wallet} (found : state.2[i]? = some wallet) :
    InStep queries (next state tx) (wallet.handleAll (state.1.told [tx])) := by
  have inStep := reconciled.inStep wallet (List.mem_of_getElem? found)
  obtain ⟨alone, unspent⟩ := settles.accepted reconciled
  have spends : tx.nullifiers.get 0 ∈ (next state tx).nullifiers := by
    rw [settles.nullifiers_next reconciled]
    exact Finset.mem_union_right _ (List.mem_toFinset.mpr (first_mem tx))
  have nonces (payeeHere : i = order.payee) (payerHere : i = order.payer) :
      wallet.nullifierOf ⟨Wallet.paymentNote payee.address order.amount order.rngSeed tx,
        state.1.ledger.tree.len⟩ ≠
      wallet.nullifierOf ⟨payer.changeNote order.amount order.rngSeed selected tx,
        state.1.ledger.tree.len + 1⟩ := by
    obtain rfl := Option.some.inj (settles.payeeAt.symm.trans (payeeHere ▸ found))
    obtain rfl := Option.some.inj (settles.payerAt.symm.trans (payerHere ▸ found))
    intro same
    have paymentAsked : nullifierQuery payer.sk.nk
        (Wallet.paymentNote payer.address order.amount order.rngSeed tx).rho ∈ queries :=
      settles.fair.payment_asked
    have changeAsked : nullifierQuery payer.sk.nk
        (payer.changeNote order.amount order.rngSeed selected tx).rho ∈ queries :=
      settles.fair.change_asked
    have rhos := (parts_eq_of_nullifier free paymentAsked changeAsked same).2
    exact absurd (parts_eq_of_rhoTransfer free settles.fair.payment_nonce
      settles.fair.change_nonce rhos).2 (by decide)
  rw [settles.handleAll_told reconciled agree free found, ← alone]
  exact inStep.receive free reconciled.dummies (unspent _ (first_mem tx)) spends
    (fun record member => settles.receipt_of_mem reconciled found member)
    (nodup_received NoteRecord.position fun _ _ => Nat.ne_of_lt (Nat.lt_succ_self _))
    (nodup_received wallet.nullifierOf nonces)

theorem bound (settles : Settles queries state order payer payee selected tx)
    (reconciled : Reconciled queries state book) : book order.payer < 2 ^ 64 := by
  have inside := (List.getElem?_eq_some_iff.mp settles.payerAt).1
  exact (Finset.single_le_sum (fun _ _ => Nat.zero_le _) (Finset.mem_range.mpr inside)).trans_lt
    reconciled.fits

/-- The selected notes are worth the payment and its change. -/
theorem value_changeNote (settles : Settles queries state order payer payee selected tx)
    (reconciled : Reconciled queries state book) :
    (payer.changeNote order.amount order.rngSeed selected tx).value.toNat + order.amount.toNat =
      recordSum selected := by
  have fits : recordSum selected < 2 ^ 64 := by
    refine (Wallet.recordSum_le_of_subperm settles.distinct).trans_lt ?_
    rw [reconciled.balances _ payer settles.payerAt]
    exact settles.bound reconciled
  have covers : order.amount ≤ sumValues selected := by
    rw [UInt64.le_iff_toNat_le, toNat_sumValues fits]
    exact settles.covers
  change (sumValues selected - order.amount).toNat + _ = _
  rw [UInt64.toNat_sub_of_le _ _ covers, toNat_sumValues fits, Nat.sub_add_cancel settles.covers]

theorem recordSum_received (settles : Settles queries state order payer payee selected tx)
    (reconciled : Reconciled queries state book) (i : ℕ) :
    recordSum (received state order payer payee selected tx i) +
        (if i = order.payer then order.amount.toNat else 0) =
      (if i = order.payee then order.amount.toNat else 0) +
        if i = order.payer then recordSum selected else 0 := by
  have change := settles.value_changeNote reconciled
  rw [received, recordSum_append]
  split_ifs <;> simp only [recordSum_recordsOf, recordSum_nil, Wallet.paymentNote] <;> omega

omit [Ciphers] in
/-- What an observation keeps and what it drops are the whole. -/
theorem recordSum_observe_of_dropped {wallet : Wallet} {nullifiers : List Nullifier}
    {dropped : List NoteRecord} (once : (wallet.unspent.map wallet.nullifierOf).Nodup)
    (unseen : ∀ record ∈ wallet.unspent, wallet.nullifierOf record ∉ wallet.seenNullifiers)
    (held : dropped.Subperm wallet.unspent)
    (named : ∀ record ∈ wallet.unspent,
      wallet.nullifierOf record ∈ nullifiers ↔ record ∈ dropped) :
    recordSum (wallet.observeNullifiers nullifiers).unspent + recordSum dropped =
      recordSum wallet.unspent := by
  have distinct : wallet.unspent.Nodup := once.of_map _
  have kept : (wallet.observeNullifiers nullifiers).unspent =
      wallet.unspent.filter fun record => !decide (record ∈ dropped) := by
    rw [Wallet.observeNullifiers, Tombstones.foldl_insert_eq_union]
    apply List.filter_congr
    intro record member
    have seen : record.note.nullifier wallet.sk.nk ∈ wallet.seenNullifiers ∪ nullifiers.toFinset ↔
        record ∈ dropped := by
      rw [Finset.mem_union, List.mem_toFinset, ← named record member]
      exact or_iff_right (unseen record member)
    simp only [seen, decide_not]
  have gone : (wallet.unspent.filter fun record => decide (record ∈ dropped)).Perm dropped := by
    obtain ⟨listed, same, sublist⟩ := held
    apply (List.perm_ext_iff_of_nodup (distinct.filter _)
      (same.nodup_iff.mp (distinct.sublist sublist))).mpr
    intro record
    rw [List.mem_filter, decide_eq_true_iff]
    exact and_iff_right_of_imp fun member => sublist.subset (same.mem_iff.mpr member)
  have whole := valueSum_perm ((List.filter_append_perm (fun record => decide (record ∈ dropped))
    wallet.unspent).map NoteRecord.note)
  rw [List.map_append, valueSum_append, valueSum_perm (gone.map NoteRecord.note)] at whole
  rw [kept, Nat.add_comm]
  exact whole

/-- A payment moves the amount from the payer to the payee. -/
theorem recordSum_next (settles : Settles queries state order payer payee selected tx)
    (reconciled : Reconciled queries state book) (agree : Ciphers.Agree)
    (free : CollisionFree queries) {i : ℕ} {wallet : Wallet} (found : state.2[i]? = some wallet) :
    recordSum (wallet.handleAll (state.1.told [tx])).unspent +
        (if i = order.payer then order.amount.toNat else 0) =
      recordSum wallet.unspent + if i = order.payee then order.amount.toNat else 0 := by
  have inStep := reconciled.inStep wallet (List.mem_of_getElem? found)
  have paying := reconciled.inStep payer (List.mem_of_getElem? settles.payerAt)
  have unseen (record : NoteRecord) (member : record ∈ wallet.unspent) :
      wallet.nullifierOf record ∉ wallet.seenNullifiers := by
    rw [inStep.synced.observed]
    exact inStep.synced.unspent record member
  have kept : recordSum (wallet.observeNullifiers (nullifiersOf [tx])).unspent +
      (if i = order.payer then recordSum selected else 0) = recordSum wallet.unspent := by
    split
    · next payerHere =>
      obtain rfl := Option.some.inj (settles.payerAt.symm.trans (payerHere ▸ found))
      exact recordSum_observe_of_dropped inStep.once unseen settles.distinct fun record member =>
        settles.mem_nullifiers_iff.trans (inStep.mem_inputNullifiers_iff free settles.held member)
    · next other =>
      have keys : payer.sk.nk ≠ wallet.sk.nk := by
        intro same
        have inside := (List.getElem?_eq_some_iff.mp found).1
        refine other ((List.getElem?_inj (by rwa [List.length_map]) reconciled.keys).mp ?_)
        rw [List.getElem?_map, List.getElem?_map, found, settles.payerAt, Option.map_some,
          Option.map_some, same]
      refine recordSum_observe_of_dropped inStep.once unseen (List.nil_subperm) ?_
      intro record member
      rw [settles.mem_nullifiers_iff]
      simp [inStep.not_mem_inputNullifiers free paying keys settles.held member]
  have gained := settles.recordSum_received reconciled i
  rw [Demo.handleAll_told, settles.offered_told reconciled agree found, recordSum_append]
  omega

/-- The state after the payment, and the line that the node logs. -/
theorem pay_eq (settles : Settles queries state order payer payee selected tx) :
    Demo.pay state order =
      (({ state.1 with ledger := next state tx },
        state.2.map fun wallet => wallet.handleAll (state.1.told [tx])),
        .ok (Demo.report { state.1 with ledger := next state tx }
          (state.1.ledger.applyCheckpoint devVerifier [tx]).2)) := by
  rw [← state.1.wallets_checkpoint [tx] state.2]
  simp only [Demo.pay, settles.payerAt, settles.payeeAt, settles.built]
  rfl

/-- The book follows the payment. -/
theorem reconciled_next (settles : Settles queries state order payer payee selected tx)
    (reconciled : Reconciled queries state book) (agree : Ciphers.Agree)
    (free : CollisionFree queries) :
    ∃ book', Accounts.pay book order.payment = some book' ∧
      Reconciled queries (Demo.pay state order).1 book' := by
  have covered : order.payment.amount ≤ book order.payment.payer := by
    rw [PaymentOrder.payment, ← reconciled.balances _ payer settles.payerAt]
    exact settles.covers.trans (Wallet.recordSum_le_of_subperm settles.distinct)
  have done : Accounts.pay book order.payment = some (Accounts.paid book order.payment) :=
    Accounts.pay_eq_some_iff.mpr ⟨covered, rfl⟩
  have grown : state.1.ledger.nullifiers ⊆ (next state tx).nullifiers := by
    rw [settles.nullifiers_next reconciled]
    exact Finset.subset_union_left
  refine ⟨_, done, ?_⟩
  rw [settles.pay_eq]
  exact {
    wellSealed := Ledger.wellSealed_applyCheckpoint reconciled.wellSealed ..
    difficulty := by simp [next, reconciled.difficulty]
    dummies := reconciled.dummies
    traced := fun nf spent => (settles.traced_next reconciled free nf spent).mono grown
    inStep := fun wallet member => by
      obtain ⟨before, beforeMem, rfl⟩ := List.mem_map.mp member
      obtain ⟨i, found⟩ := List.getElem?_of_mem beforeMem
      exact settles.inStep_next reconciled agree free found
    keys := by
      rw [List.map_map]
      simpa [Function.comp_def] using reconciled.keys
    balances := fun i wallet found => by
      rw [List.getElem?_map, Option.map_eq_some_iff] at found
      obtain ⟨before, beforeAt, rfl⟩ := found
      have moved := settles.recordSum_next reconciled agree free beforeAt
      rw [reconciled.balances i before beforeAt] at moved
      exact Nat.add_right_cancel (moved.trans (Accounts.paid_add_debit covered i).symm)
    fits := by
      rw [List.length_map, Accounts.sum_pay done]
      · exact reconciled.fits
      · exact Finset.mem_range.mpr (List.getElem?_eq_some_iff.mp settles.payerAt).1
      · exact Finset.mem_range.mpr (List.getElem?_eq_some_iff.mp settles.payeeAt).1 }

end Settles

/-! ## Runs of payments -/

namespace Demo

/-- The payments that were made. -/
def made (orders : List PaymentOrder) (outcomes : List (Except TransferFailure String)) :
    List (Accounts.Payment ℕ) :=
  ((orders.zip outcomes).filter fun entry => entry.2.isOk).map fun entry => entry.1.payment

variable {queries : Set Query} {state : Demo × List Wallet} {book : ℕ → ℕ}

/-- A payment that is not built changes nothing; one that is built and fair settles. -/
theorem pay_cases (reconciled : Reconciled queries state book) {order : PaymentOrder}
    (fair : FairOrder queries state order) :
    (∃ failure, pay state order = (state, .error failure)) ∨
      ∃ payer payee selected tx, Settles queries state order payer payee selected tx := by
  cases payerAt : state.2[order.payer]? with
  | none => exact .inl ⟨.panicked, by simp only [pay, payerAt]⟩
  | some payer =>
    cases payeeAt : state.2[order.payee]? with
    | none => exact .inl ⟨.panicked, by simp only [pay, payerAt, payeeAt]⟩
    | some payee =>
      cases built : payer.buildTransfer payee.address order.amount state.1.anchor
          state.1.ledger.treeWitness order.rngSeed with
      | error failure => exact .inl ⟨failure, by simp only [pay, payerAt, payeeAt, built]⟩
      | ok tx =>
          obtain ⟨selected, chosen, -⟩ := Wallet.built_of_buildTransfer built
          have inside := (List.getElem?_eq_some_iff.mp payerAt).1
          have fits : recordSum payer.unspent < 2 ^ 64 := by
            rw [reconciled.balances _ payer payerAt]
            exact (Finset.single_le_sum (fun _ _ => Nat.zero_le _)
              (Finset.mem_range.mpr inside)).trans_lt reconciled.fits
          obtain ⟨distinct, covers⟩ :
              selected.Subperm payer.unspent ∧ order.amount.toNat ≤ recordSum selected := by
            rcases Wallet.selectInputs_cases fits order.amount with
              ⟨-, failed⟩ | ⟨selected', chosen', selects⟩ | ⟨-, -, failed⟩
            · cases failed.symm.trans chosen
            · obtain rfl := Except.ok.inj (chosen'.symm.trans chosen)
              exact ⟨selects.distinct, selects.covers⟩
            · cases failed.symm.trans chosen
          exact .inr ⟨payer, payee, selected, tx, payerAt, payeeAt, chosen, distinct, covers, built,
            fair payer payee tx payerAt payeeAt built⟩

theorem isOk_pay {state : Demo × List Wallet} {order : PaymentOrder} {payer payee : Wallet}
    {tx : TxV1} (payerAt : state.2[order.payer]? = some payer)
    (payeeAt : state.2[order.payee]? = some payee)
    (built : payer.buildTransfer payee.address order.amount state.1.anchor
      state.1.ledger.treeWitness order.rngSeed = .ok tx) :
    (pay state order).2.isOk = true := by
  simp only [pay, payerAt, payeeAt, built]
  rfl

theorem length_pay (state : Demo × List Wallet) (order : PaymentOrder) :
    (pay state order).1.2.length = state.2.length := by
  rw [pay]
  split
  · split
    · rfl
    · next tx _ =>
      change (state.1.checkpoint [tx] state.2).2.1.length = _
      rw [wallets_checkpoint, List.length_map]
  · rfl

theorem members_of_settles {order : PaymentOrder} {payer payee : Wallet}
    {selected : List NoteRecord} {tx : TxV1}
    (settles : Settles queries state order payer payee selected tx) :
    order.payment.payer ∈ Finset.range state.2.length ∧
      order.payment.payee ∈ Finset.range state.2.length :=
  ⟨Finset.mem_range.mpr (List.getElem?_eq_some_iff.mp settles.payerAt).1,
    Finset.mem_range.mpr (List.getElem?_eq_some_iff.mp settles.payeeAt).1⟩

/-- The book follows the payments that were made, and all of them are between the wallets. -/
theorem reconciled_run (agree : Ciphers.Agree) (free : CollisionFree queries)
    {orders : List PaymentOrder} :
    ∀ {state : Demo × List Wallet} {book : ℕ → ℕ}, Reconciled queries state book →
      Machine.Along pay (FairOrder queries) state orders →
      let outcome := Machine.run pay state orders
      (∀ payment ∈ made orders outcome.2, payment.payer ∈ Finset.range state.2.length ∧
        payment.payee ∈ Finset.range state.2.length) ∧
      ∃ book', Accounts.payAll book (made orders outcome.2) = some book' ∧
        Reconciled queries outcome.1 book' := by
  induction orders with
  | nil => exact fun reconciled _ => ⟨nofun, _, rfl, reconciled⟩
  | cons order rest ih =>
      intro state book reconciled fair
      obtain ⟨now, later⟩ := fair
      rcases pay_cases reconciled now with
        ⟨failure, refused⟩ | ⟨payer, payee, selected, tx, settles⟩
      · rw [refused] at later
        have tail := ih reconciled later
        simp only [Machine.run_cons, refused]
        exact tail
      · obtain ⟨next, done, reconciled'⟩ := settles.reconciled_next reconciled agree free
        obtain ⟨members, book', allDone, settled⟩ := ih reconciled' later
        rw [length_pay] at members
        have first : made (order :: rest) (Machine.run pay state (order :: rest)).2 =
            order.payment :: made rest (Machine.run pay (pay state order).1 rest).2 := by
          have built : (pay state order).2.isOk = true := by
            rw [settles.pay_eq]
            rfl
          simp [made, built]
        refine ⟨?_, book', ?_, settled⟩
        · rw [first]
          exact List.forall_mem_cons.mpr ⟨members_of_settles settles, members⟩
        · rw [first, Accounts.payAll, List.foldlM_cons, done]
          exact allDone

end Demo

end Runs

section Samples

open Reference

/-- The sample wallet pays the recipient one unit. -/
def sampleOrder : PaymentOrder := ⟨0, 1, 1, Bytes.filled 32 1⟩

def sampleState : Demo × List Wallet :=
  (⟨sampleLedger, sampleNote.value⟩, [sampleWallet, recipientWallet])

/-- The recipient returns the unit. -/
def returnOrder : PaymentOrder := ⟨1, 0, 1, Bytes.filled 32 2⟩

/-- The wallets after the first payment. -/
def paidState : Demo × List Wallet := (Demo.pay sampleState sampleOrder).1

def returnPayer : Wallet := (paidState.2[1]?).getD recipientWallet

def returnPayee : Wallet := (paidState.2[0]?).getD sampleWallet

def returnTx : TxV1 :=
  (returnPayer.buildTransfer returnPayee.address 1 paidState.1.anchor
    paidState.1.ledger.treeWitness (Bytes.filled 32 2)).toOption.getD sampleTx

/-- The hash queries of both payments. -/
def sampleQueries : List Query :=
  let first := firstPayment.tx.nullifiers.get 0
  let second := returnTx.nullifiers.get 0
  [dummyRhoQuery 0, dummyRhoQuery 1, nullifierQuery sampleKey.nk sampleNote.rho,
    nullifierQuery sampleKey.nk (dummyInput 0).note.rho,
    nullifierQuery sampleKey.nk (dummyInput 1).note.rho,
    nullifierQuery recipientKey.nk (dummyInput 0).note.rho,
    nullifierQuery recipientKey.nk (dummyInput 1).note.rho,
    rhoTransferQuery first 0, rhoTransferQuery first 1,
    nullifierQuery recipientKey.nk (rhoTransfer first 0),
    nullifierQuery sampleKey.nk (rhoTransfer first 1),
    rhoTransferQuery second 0, rhoTransferQuery second 1,
    nullifierQuery sampleKey.nk (rhoTransfer second 0),
    nullifierQuery recipientKey.nk (rhoTransfer second 1)]

theorem sampleQueries_free : CollisionFree {query | query ∈ sampleQueries} :=
  CollisionFree.of_pairwise (by decide +kernel)

/-- Two wallets, one of them with a genesis note, are reconciled at genesis. -/
theorem reconciled_sample : Reconciled {query | query ∈ sampleQueries} sampleState
    (fun i => if i = 0 then 100 else 0) where
  wellSealed := Ledger.wellSealed_genesis ..
  difficulty := rfl
  dummies := by
    intro dummyCtr small
    rcases lt_txInputs_iff.mp small with rfl | rfl <;> simp [sampleQueries]
  traced := nofun
  inStep := by
    intro wallet member
    rcases List.mem_pair.mp member with rfl | rfl
    · exact {
        synced := honest_firstPayment.synced
        once := List.nodup_singleton _
        asked := by simp [sampleWallet, sampleQueries]
        accounted := fun record member => by
          obtain rfl := List.mem_singleton.mp member
          have unanswered : ∀ query ∈ sampleQueries, digest query ≠ sampleNote.rho := by
            decide +kernel
          exact accounted_of_unanswered unanswered
        apart := fun record member dummyCtr small => by
          obtain rfl := List.mem_singleton.mp member
          rcases lt_txInputs_iff.mp small with rfl | rfl <;> decide +kernel
        padding := fun dummyCtr small => by
          rcases lt_txInputs_iff.mp small with rfl | rfl <;> simp [sampleWallet, sampleQueries] }
    · exact {
        synced := ⟨rfl, nofun, nofun, nofun, List.nodup_nil⟩
        once := List.nodup_nil
        asked := nofun
        accounted := nofun
        apart := nofun
        padding := fun dummyCtr small => by
          rcases lt_txInputs_iff.mp small with rfl | rfl <;> simp [recipientWallet, sampleQueries] }
  keys := by decide +kernel
  balances := by
    intro i wallet found
    match i with
    | 0 =>
        obtain rfl := Option.some.inj found
        rfl
    | 1 =>
        obtain rfl := Option.some.inj found
        rfl
  fits := by decide

theorem fairOrder_of_built {state : Demo × List Wallet} {order : PaymentOrder}
    {payer payee : Wallet} {tx : TxV1} (payerAt : state.2[order.payer]? = some payer)
    (payeeAt : state.2[order.payee]? = some payee)
    (built : payer.buildTransfer payee.address order.amount state.1.anchor
      state.1.ledger.treeWitness order.rngSeed = .ok tx)
    (fair : Fair {query | query ∈ sampleQueries} state order payer payee tx) :
    FairOrder {query | query ∈ sampleQueries} state order := by
  intro payer' payee' tx' payerAt' payeeAt' built'
  obtain rfl := Option.some.inj (payerAt.symm.trans payerAt')
  obtain rfl := Option.some.inj (payeeAt.symm.trans payeeAt')
  obtain rfl := Except.ok.inj (built.symm.trans built')
  exact fair

theorem fairOrder_sampleOrder :
    FairOrder {query | query ∈ sampleQueries} sampleState sampleOrder := by
  refine fairOrder_of_built rfl rfl honest_firstPayment.built ?_
  exact {
    pads := fun selected chosen => by
      have one : sampleWallet.selectInputs 1 = .ok [⟨sampleNote, 0⟩] := by decide +kernel
      obtain rfl := Except.ok.inj (one.symm.trans chosen)
      exact ⟨by decide +kernel, fun _ _ => Finset.notMem_empty _⟩
    payment_nonce := by simp [sampleQueries]
    change_nonce := by simp [sampleQueries]
    payment_asked := by simp [sampleQueries, recipientWallet]
    change_asked := by simp [sampleQueries, sampleWallet]
    payment_sealed := fun i wallet found other => by
      match i with
      | 0 =>
          obtain rfl := Option.some.inj found
          decide +kernel
      | 1 => exact absurd rfl other
    change_sealed := fun i wallet found other => by
      match i with
      | 0 => exact absurd rfl other
      | 1 =>
          obtain rfl := Option.some.inj found
          decide +kernel }

theorem eq_ok_getD {ε α : Type} {result : Except ε α} (succeeded : result.isOk = true)
    (fallback : α) : result = .ok (result.toOption.getD fallback) := by
  cases result with
  | ok value => rfl
  | error error => cases succeeded

theorem length_paidState : paidState.2.length = 2 := by
  rw [paidState, Demo.length_pay]
  rfl

theorem paidState_wallets :
    paidState.2[0]? = some returnPayee ∧ paidState.2[1]? = some returnPayer := by
  have two := length_paidState
  rw [returnPayee, returnPayer, List.getElem?_eq_getElem (by omega),
    List.getElem?_eq_getElem (by omega)]
  exact ⟨rfl, rfl⟩

/-- The recipient holds the unit and can return it, with a dummy that is new to the ledger;
neither of the two opens the ciphertext for the other. -/
theorem returnTx_facts :
    (returnPayee.sk = sampleKey ∧ returnPayer.sk = recipientKey) ∧
      (returnPayer.buildTransfer returnPayee.address 1 paidState.1.anchor
        paidState.1.ledger.treeWitness (Bytes.filled 32 2)).isOk = true ∧
      returnPayer.selectInputs 1 = .ok returnPayer.unspent ∧
      (returnPayer.inputNullifiers returnPayer.unspent).Nodup ∧
      (∀ dummyCtr < txInputs - returnPayer.unspent.length,
        (dummyInput dummyCtr).note.nullifier returnPayer.sk.nk ∉ paidState.1.ledger.nullifiers) ∧
      tryDecrypt (returnTx.encOutputs.get 0) returnPayer.sk.incomingViewingKey = none ∧
      tryDecrypt (returnTx.encOutputs.get 1) returnPayee.sk.incomingViewingKey = none := by
  decide +kernel

theorem returnTx_built : returnPayer.buildTransfer returnPayee.address 1 paidState.1.anchor
    paidState.1.ledger.treeWitness (Bytes.filled 32 2) = .ok returnTx := by
  rw [returnTx]
  exact eq_ok_getD returnTx_facts.2.1 sampleTx

theorem fairOrder_returnOrder :
    FairOrder {query | query ∈ sampleQueries} paidState returnOrder := by
  obtain ⟨⟨payeeKey, payerKey⟩, -, chosen, distinct, fresh, payment_sealed, change_sealed⟩ :=
    returnTx_facts
  obtain ⟨payeeAt, payerAt⟩ := paidState_wallets
  have only (i : ℕ) (wallet : Wallet) (found : paidState.2[i]? = some wallet) : i = 0 ∨ i = 1 := by
    have inside := (List.getElem?_eq_some_iff.mp found).1
    have two := length_paidState
    omega
  refine fairOrder_of_built payerAt payeeAt returnTx_built ?_
  exact {
    pads := fun selected chosen' => by
      obtain rfl := Except.ok.inj (chosen.symm.trans chosen')
      exact ⟨distinct, fresh⟩
    payment_nonce := by simp [sampleQueries]
    change_nonce := by simp [sampleQueries]
    payment_asked := by simp [sampleQueries, payeeKey]
    change_asked := by simp [sampleQueries, payerKey]
    payment_sealed := fun i wallet found other => by
      rcases only i wallet found with rfl | rfl
      · exact absurd rfl other
      · obtain rfl := Option.some.inj (payerAt.symm.trans found)
        exact payment_sealed
    change_sealed := fun i wallet found other => by
      rcases only i wallet found with rfl | rfl
      · obtain rfl := Option.some.inj (payeeAt.symm.trans found)
        exact change_sealed
      · exact absurd rfl other }

end Samples

end ShieldedLedger
