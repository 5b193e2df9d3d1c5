import ShieldedLedger.Node.Accounts
import ShieldedLedger.Wallet.Completeness

/-!
# The lifecycle demo

Alice is funded at genesis and pays Bob, who pays Carol out of the note he has just
received.  The demo compares balances on the way and ends with an error when they are not
the expected ones.  It runs to its end, with one and the same log, for all hashes and
ciphers that do what is asked of them.
-/

namespace ShieldedLedger

def genesisFund : UInt64 := 1000000

/-- How the demo ends early. -/
inductive DemoFailure where
  | error (message : String)
  | panicked
  deriving DecidableEq

namespace WalletError

/-- The text of an error. -/
def display : WalletError → String
  | .insufficientFunds «have» need =>
      "insufficient funds: have " ++ toString «have» ++ ", need " ++ toString need
  | .tooManyInputsNeeded =>
      "amount not coverable by " ++ toString txInputs ++ " notes; consolidate first"
  | .missingWitness position => "missing witness for note at position " ++ toString position
  | .prove constraint => "proof generation failed: " ++ constraint

end WalletError

/-- A failed transfer ends the demo under the name of the payer. -/
def TransferFailure.demoFailure (payer : String) : TransferFailure → DemoFailure
  | .error failed => .error (payer ++ " build_transfer: " ++ failed.display)
  | .panicked => .panicked

/-- The balance of the wallet at an index. -/
def balanceAt (wallets : List Wallet) (i : ℕ) : UInt64 := ((wallets[i]?).map Wallet.balance).getD 0

/-- Balances of alice, bob and carol. -/
def balanceLine (checkpoint : ℕ) (wallets : List Wallet) : String :=
  "after cp" ++ toString checkpoint ++ ": alice=" ++ toString (balanceAt wallets 0) ++ " bob=" ++
    toString (balanceAt wallets 1) ++ " carol=" ++ toString (balanceAt wallets 2)

/-- End the demo unless a comparison holds. -/
def expectBalances (expected : Bool) (message : String) : Except DemoFailure Unit :=
  if expected then .ok () else .error (.error message)

def demoEmission : EmissionParams := (EmissionParams.new 10000 100 1000).get (by decide)

def demoValidators : List ValidatorInfo := [⟨1, Bytes.filled 32 0xAB⟩]

section Demo

variable [Blake3] [Ciphers]

omit [Ciphers] in
def alice : Wallet := Wallet.fromSeed (Bytes.filled 32 1)

omit [Ciphers] in
def bob : Wallet := Wallet.fromSeed (Bytes.filled 32 2)

omit [Ciphers] in
def carol : Wallet := Wallet.fromSeed (Bytes.filled 32 3)

omit [Ciphers] in
/-- The note that funds Alice. -/
def aliceNote : Note where
  value := genesisFund
  addrTag := alice.sk.addrTag
  rho := rhoMint 0 0
  rseed := rhoMint 0 200

omit [Ciphers] in
def demoLedger : Ledger :=
  Ledger.genesis demoEmission demoValidators 0 [(aliceNote.commitment, genesisFund)]

def toBob : PaymentOrder := ⟨0, 1, 250000, Bytes.filled 32 0x10⟩

def toCarol : PaymentOrder := ⟨1, 2, 100000, Bytes.filled 32 0x20⟩

/-- A payment of the demo: an unbuilt transfer ends it under the name of the payer. -/
def payOrFail (state : Demo × List Wallet) (payer : String) (order : PaymentOrder) :
    Except DemoFailure ((Demo × List Wallet) × String) :=
  match Demo.pay state order with
  | (_, .error failure) => .error (failure.demoFailure payer)
  | (next, .ok line) => .ok (next, line)

/-- The payments, from the funded wallets on. -/
def runFunded (state : Demo × List Wallet) : Except DemoFailure (List String) := do
  let funded := "genesis: alice funded with " ++ toString genesisFund ++ " (balance " ++
    toString (balanceAt state.2 0) ++ ")"
  let (state, sealed1) ← payOrFail state "alice" toBob
  let after1 := balanceLine 1 state.2
  expectBalances (balanceAt state.2 0 == 750000 && balanceAt state.2 1 == 250000)
    ("unexpected balances after cp1: alice=" ++ toString (balanceAt state.2 0) ++ " bob=" ++
      toString (balanceAt state.2 1))
  let (state, sealed2) ← payOrFail state "bob" toCarol
  let after2 := balanceLine 2 state.2
  expectBalances (balanceAt state.2 1 == 150000 && balanceAt state.2 2 == 100000)
    ("unexpected balances after cp2: bob=" ++ toString (balanceAt state.2 1) ++ " carol=" ++
      toString (balanceAt state.2 2))
  return [funded, "alice builds private transfer of 250000 to bob", sealed1, after1,
    "bob builds private transfer of 100000 to carol (chained spend)", sealed2, after2,
    "FINAL: alice=750000 bob=150000 carol=100000, supply=" ++ toString state.1.ledger.supply ++
      " audited OK"]

/-- `run_demo`: the log, or how the demo ended. -/
def runDemo : Except DemoFailure (List String) :=
  match encryptNote aliceNote alice.address (Bytes.filled memoLen 0) (Bytes.filled 32 0xE1) with
  | none => .error .panicked
  | some genesisEnc =>
      let (funded, received) := alice.tryReceive genesisEnc 0
      if received then runFunded (⟨demoLedger, genesisFund⟩, [funded, bob, carol])
      else .error (.error "alice failed to receive genesis note")

/-! ## The funded state -/

omit [Ciphers] in
/-- The wallets after genesis. -/
def demoStart : Demo × List Wallet :=
  (⟨demoLedger, genesisFund⟩, [{ alice with unspent := [⟨aliceNote, 0⟩] }, bob, carol])

omit [Ciphers] in
/-- The queries that lead from a seed to its nullifier key. -/
def nkQueries (seed : Bytes32) : List Query :=
  [⟨ds.sk, seed.toList⟩, ⟨ds.nk, (SpendingKey.fromSeed seed).sk.toList⟩]

/-- The payment reveals nothing to others if it is built. -/
def UnlinkedOrder (queries : Set Query) (state : Demo × List Wallet) (order : PaymentOrder) :
    Prop :=
  ∀ payer payee tx, state.2[order.payer]? = some payer → state.2[order.payee]? = some payee →
    payer.buildTransfer payee.address order.amount state.1.anchor state.1.ledger.treeWitness
      order.rngSeed = .ok tx →
    Unlinked queries state order payer payee tx

/-- What the demo asks of the hash and the ciphers: the ciphers agree, a transfer reveals
nothing to others, and the queries of the run do not collide. -/
structure DemoContract (queries : Set Query) : Prop where
  agree : Ciphers.Agree
  free : CollisionFree queries
  keys : ∀ seed ∈ [(1 : UInt8), 2, 3], ∀ query ∈ nkQueries (Bytes.filled 32 seed), query ∈ queries
  dummies : ∀ dummyCtr < txInputs, dummyRhoQuery dummyCtr ∈ queries
  padding : ∀ wallet ∈ [alice, bob, carol], ∀ dummyCtr < txInputs,
    nullifierQuery wallet.sk.nk (dummyInput dummyCtr).note.rho ∈ queries
  minted : rhoMintQuery 0 0 ∈ queries
  funded : nullifierQuery alice.sk.nk aliceNote.rho ∈ queries
  unlinked : Machine.Along Demo.pay (UnlinkedOrder queries) demoStart [toBob, toCarol]

omit [Ciphers] in
/-- Different seeds have different nullifier keys. -/
theorem nk_ne_of_seed {queries : Set Query} (free : CollisionFree queries) {left right : Bytes32}
    (leftMem : ∀ query ∈ nkQueries left, query ∈ queries)
    (rightMem : ∀ query ∈ nkQueries right, query ∈ queries) (different : left ≠ right) :
    (Wallet.fromSeed left).sk.nk ≠ (Wallet.fromSeed right).sk.nk := by
  intro same
  have inner := free (leftMem _ (by simp [nkQueries])) (rightMem _ (by simp [nkQueries]))
    (show digest ⟨ds.nk, (SpendingKey.fromSeed left).sk.toList⟩ =
      digest ⟨ds.nk, (SpendingKey.fromSeed right).sk.toList⟩ from same)
  have keys : digest ⟨ds.sk, left.toList⟩ = digest ⟨ds.sk, right.toList⟩ :=
    List.Vector.eq _ _ (Query.mk.inj inner).2
  have outer := free (leftMem _ (by simp [nkQueries])) (rightMem _ (by simp [nkQueries])) keys
  exact different (List.Vector.eq _ _ (Query.mk.inj outer).2)

namespace DemoContract

variable {queries : Set Query} (contract : DemoContract queries)
include contract

theorem nk_ne (left right : UInt8) (leftMem : left ∈ [(1 : UInt8), 2, 3])
    (rightMem : right ∈ [(1 : UInt8), 2, 3]) (different : left ≠ right) :
    (Wallet.fromSeed (Bytes.filled 32 left)).sk.nk ≠
      (Wallet.fromSeed (Bytes.filled 32 right)).sk.nk := by
  refine nk_ne_of_seed contract.free (contract.keys left leftMem) (contract.keys right rightMem) ?_
  intro same
  have heads := congrArg (fun seed : Bytes32 => seed.get 0) same
  exact different heads

/-- A wallet without notes is in step with the genesis ledger. -/
theorem inStep_empty {wallet : Wallet} (member : wallet ∈ [alice, bob, carol]) :
    InStep queries demoLedger wallet := by
  have fresh : wallet.unspent = [] ∧ wallet.seenNullifiers = ∅ := by
    simp only [List.mem_cons, List.not_mem_nil, or_false] at member
    rcases member with rfl | rfl | rfl <;> exact ⟨rfl, rfl⟩
  have none {property : NoteRecord → Prop} (record : NoteRecord)
      (held : record ∈ wallet.unspent) : property record := by
    rw [fresh.1] at held
    cases held
  have noRecords {β : Type} (key : NoteRecord → β) : (wallet.unspent.map key).Nodup := by
    rw [fresh.1]
    exact List.nodup_nil
  exact {
    synced := ⟨fresh.2, none, none, none, noRecords _⟩
    once := noRecords _
    asked := none
    accounted := none
    apart := none
    padding := contract.padding wallet member }

/-- Alice with her genesis note is in step with the genesis ledger. -/
theorem inStep_funded :
    InStep queries demoLedger { alice with unspent := [⟨aliceNote, 0⟩] } where
  synced := {
    observed := rfl
    unspent := fun _ _ => Finset.notMem_empty _
    owned := List.forall_mem_singleton.mpr rfl
    backed := List.forall_mem_singleton.mpr rfl
    once := List.nodup_singleton _ }
  once := List.nodup_singleton _
  asked := List.forall_mem_singleton.mpr contract.funded
  accounted := List.forall_mem_singleton.mpr fun nf index asked same =>
    absurd same (contract.free.ne_of_context contract.minted asked
      (by decide : ds.rhoMint ≠ ds.rhoTransfer))
  apart := List.forall_mem_singleton.mpr fun dummyCtr small =>
    contract.free.ne_of_context contract.minted (contract.dummies dummyCtr small)
      (by decide : ds.rhoMint ≠ "unknown.v0.note.dummy.rho")
  padding := contract.padding alice (List.mem_cons_self ..)

/-- The book of the demo. -/
theorem reconciled_start :
    Reconciled queries demoStart (fun i => if i = 0 then 1000000 else 0) where
  wellSealed := Ledger.wellSealed_genesis ..
  difficulty := rfl
  dummies := contract.dummies
  traced := nofun
  inStep := by
    intro wallet member
    rcases List.mem_cons.mp member with rfl | empty
    · exact contract.inStep_funded
    · exact contract.inStep_empty (List.mem_cons_of_mem _ empty)
  keys := by
    have first := contract.nk_ne 1 2 (by decide) (by decide) (by decide)
    have second := contract.nk_ne 1 3 (by decide) (by decide) (by decide)
    have third := contract.nk_ne 2 3 (by decide) (by decide) (by decide)
    have listed : demoStart.2.map (fun wallet => wallet.sk.nk) =
        [alice.sk.nk, bob.sk.nk, carol.sk.nk] := rfl
    rw [listed]
    simp only [List.nodup_cons, List.mem_cons, List.not_mem_nil, or_false, not_or,
      not_false_eq_true, List.nodup_nil, and_true]
    exact ⟨⟨first, second⟩, third⟩
  balances := by
    intro i wallet found
    match i with
    | 0 =>
        obtain rfl := Option.some.inj found
        rfl
    | 1 =>
        obtain rfl := Option.some.inj found
        rfl
    | 2 =>
        obtain rfl := Option.some.inj found
        rfl
  fits := by
    change ∑ i ∈ Finset.range 3, (if i = 0 then 1000000 else 0) < 2 ^ 64
    decide

/-- A payment in the demo is built and settles when the payer has the amount in one note. -/
theorem exists_settles {state : Demo × List Wallet} {book : ℕ → ℕ}
    (reconciled : Reconciled queries state book) {order : PaymentOrder} {payer payee : Wallet}
    (payerAt : state.2[order.payer]? = some payer) (payeeAt : state.2[order.payee]? = some payee)
    (room : state.1.ledger.tree.len ≤ 2 ^ treeDepth) (bounded : book order.payer < maxMoney.toNat)
    (coverable : payer.Coverable order.amount) (unlinked : UnlinkedOrder queries state order)
    (others : ∀ nf ∈ state.1.ledger.nullifiers, ∃ (nk : Bytes32) (note : Note),
      nf = note.nullifier nk ∧ nullifierQuery nk note.rho ∈ queries ∧ nk ≠ payer.sk.nk) :
    ∃ selected tx, Settles queries state order payer payee selected tx := by
  have inStep := reconciled.inStep payer (List.mem_of_getElem? payerAt)
  have held := reconciled.balances _ payer payerAt
  rw [← held] at bounded
  have payable : (Ciphers.kemNew payee.address.kemPk).isSome = true :=
    Option.isSome_of_eq_some (contract.agree.kemNew_kemToBytes _)
  rcases Wallet.selectInputs_cases (bounded.trans maxMoney.toNat_lt) order.amount with
    ⟨short, -⟩ | ⟨selected, chosen, selects⟩ | ⟨-, beyond, -⟩
  · exact absurd coverable.le_recordSum (Nat.not_le.mpr short)
  · obtain ⟨tx, built⟩ := (Wallet.buildTransfer_of_selects payee.address order.rngSeed
      contract.agree inStep.synced room bounded chosen selects).1 payable
    have pads : PadsFresh state.1.ledger payer order.amount := by
      intro selected' chosen'
      obtain rfl := Except.ok.inj (chosen.symm.trans chosen')
      refine ⟨inStep.nodup_inputNullifiers contract.free contract.dummies selects.distinct, ?_⟩
      intro dummyCtr inside spent
      obtain ⟨nk, note, same, asked, other⟩ := others _ spent
      have small : dummyCtr < txInputs := inside.trans_le (Nat.sub_le _ _)
      exact other (parts_eq_of_nullifier contract.free asked (inStep.padding dummyCtr small)
        same.symm).1
    exact ⟨selected, tx, payerAt, payeeAt, chosen, selects.distinct, selects.covers, built,
      ⟨unlinked payer payee tx payerAt payeeAt built, pads⟩⟩
  · exact absurd coverable beyond

end DemoContract

/-! ## What the checkpoints log -/

/-- The schedule, the validators and the counters of the demo. -/
structure DemoAt (state : Demo × List Wallet) (height : ℕ) (supply : UInt64) : Prop where
  emission : state.1.ledger.emission = demoEmission
  validators : state.1.ledger.validators = demoValidators
  height : state.1.ledger.height = height
  supply : state.1.ledger.supply = supply
  genesisSupply : state.1.genesisSupply = genesisFund

/-- The rewards of the checkpoint after a height. -/
def demoRewards (height : ℕ) : RewardDescriptor :=
  rewardDescriptor demoEmission (height + 1) (demoValidators.map ValidatorInfo.weight)

def demoSupply (height : ℕ) (supply : UInt64) : UInt64 :=
  (demoRewards height).shares.foldl (fun supply share => supply + share.amount) supply

/-- The line of a checkpoint, in its parts. -/
def checkpointLine (height accepted rejected : ℕ) (emission supply : UInt64) (audited : Bool) :
    String :=
  "checkpoint " ++ toString height ++ " sealed: " ++ toString accepted ++
    " accepted, " ++ toString rejected ++ " rejected, emission " ++
    toString emission ++ ", supply " ++ toString supply ++ " (audit " ++
    (if audited then "OK" else "FAIL") ++ ")"

/-- The audit of the demo at a height. -/
def demoAudit (height : ℕ) (supply : UInt64) : Bool :=
  supply == genesisFund + (List.range' 1 height).foldl
    (fun minted height => minted + demoEmission.emissionAt height) 0

/-- The line of a checkpoint that accepts its only transaction. -/
def demoLine (height : ℕ) (supply : UInt64) : String :=
  checkpointLine (height + 1) 1 0 (demoRewards height).total (demoSupply height supply)
    (demoAudit (height + 1) (demoSupply height supply))

section Settling

variable {queries : Set Query} {state : Demo × List Wallet} {book : ℕ → ℕ} {order : PaymentOrder}
  {payer payee : Wallet} {selected : List NoteRecord} {tx : TxV1} {height : ℕ} {supply : UInt64}

omit [Blake3] [Ciphers] in
theorem nextRewards_of_demoAt (at_ : DemoAt state height supply) :
    state.1.ledger.nextRewards = demoRewards height := by
  rw [Ledger.nextRewards, at_.emission, at_.validators, at_.height, demoRewards]

omit [Ciphers] in
theorem supply_next (at_ : DemoAt state height supply) (tx : TxV1) :
    (Settles.next state tx).supply = demoSupply height supply := by
  rw [Settles.next, Ledger.applyCheckpoint_supply, nextRewards_of_demoAt at_, at_.supply,
    demoSupply]

/-- A settled payment moves the demo on by one height. -/
theorem demoAt_pay (at_ : DemoAt state height supply)
    (settles : Settles queries state order payer payee selected tx) :
    DemoAt (Demo.pay state order).1 (height + 1) (demoSupply height supply) := by
  rw [settles.pay_eq]
  exact {
    emission := by simp [Settles.next, at_.emission]
    validators := by simp [Settles.next, at_.validators]
    height := by simp [Settles.next, at_.height]
    supply := supply_next at_ tx
    genesisSupply := at_.genesisSupply }

/-- A settled payment logs its checkpoint. -/
theorem line_of_settles (at_ : DemoAt state height supply)
    (settles : Settles queries state order payer payee selected tx)
    (reconciled : Reconciled queries state book) :
    (Demo.pay state order).2 = .ok (demoLine height supply) := by
  have summary : (state.1.ledger.applyCheckpoint devVerifier [tx]).2.accepted = 1 := by
    rw [Ledger.applyCheckpoint_summary_accepted,
      (state.1.ledger.tracks_stageAll devVerifier [tx]).accepted, (settles.accepted reconciled).1,
      List.length_singleton]
  have rejected : (state.1.ledger.applyCheckpoint devVerifier [tx]).2.rejected.length = 0 := by
    have total := (state.1.ledger.recorded_applyCheckpoint devVerifier [tx]).total
    rw [summary, List.length_singleton] at total
    omega
  have moved := demoAt_pay at_ settles
  rw [settles.pay_eq] at moved ⊢
  have audited : (Settles.next state tx).auditSupply state.1.genesisSupply =
      demoAudit (height + 1) (demoSupply height supply) := by
    rw [Ledger.auditSupply, demoAudit, moved.height, moved.emission, moved.supply,
      at_.genesisSupply]
  have total : (state.1.ledger.applyCheckpoint devVerifier [tx]).2.rewards.total =
      (demoRewards height).total := by
    rw [Ledger.applyCheckpoint_summary_rewards, nextRewards_of_demoAt at_]
  have minted : (state.1.ledger.applyCheckpoint devVerifier [tx]).2.totalSupply =
      demoSupply height supply := supply_next at_ tx
  have sealedAt : (state.1.ledger.applyCheckpoint devVerifier [tx]).2.height = height + 1 :=
    congrArg (· + 1) at_.height
  have line : Demo.report { state.1 with ledger := Settles.next state tx }
      (state.1.ledger.applyCheckpoint devVerifier [tx]).2 =
        checkpointLine (state.1.ledger.applyCheckpoint devVerifier [tx]).2.height
          (state.1.ledger.applyCheckpoint devVerifier [tx]).2.accepted
          (state.1.ledger.applyCheckpoint devVerifier [tx]).2.rejected.length
          (state.1.ledger.applyCheckpoint devVerifier [tx]).2.rewards.total
          (state.1.ledger.applyCheckpoint devVerifier [tx]).2.totalSupply
          ((Settles.next state tx).auditSupply state.1.genesisSupply) := rfl
  refine congrArg Except.ok ?_
  rw [line, sealedAt, summary, rejected, total, minted, audited]
  exact (demoLine.eq_1 height supply).symm

omit [Ciphers] in
/-- A balance is read off the book. -/
theorem balanceAt_of_reconciled (reconciled : Reconciled queries state book) {i : ℕ}
    (inside : i < state.2.length) : balanceAt state.2 i = UInt64.ofNat (book i) := by
  have found := List.getElem?_eq_getElem inside
  have shown := reconciled.balances i _ found
  have fits : recordSum state.2[i].unspent < 2 ^ 64 := by
    rw [shown]
    exact (Finset.single_le_sum (fun _ _ => Nat.zero_le _) (Finset.mem_range.mpr inside)).trans_lt
      reconciled.fits
  rw [balanceAt, found, Option.map_some, Option.getD_some, ← shown, ← Wallet.toNat_balance fits,
    UInt64.ofNat_toNat]

/-- A payment adds at most two records to a wallet. -/
theorem length_unspent_next (settles : Settles queries state order payer payee selected tx)
    (reconciled : Reconciled queries state book) (agree : Ciphers.Agree) {i : ℕ} {wallet : Wallet}
    (found : state.2[i]? = some wallet) :
    (wallet.handleAll (state.1.told [tx])).unspent.length ≤ wallet.unspent.length + 2 := by
  have single (note : Note) (position : ℕ) : (recordsOf note position).length ≤ 1 := by
    rw [recordsOf]
    split <;> simp
  have received : (Settles.received state order payer payee selected tx i).length ≤ 2 := by
    rw [Settles.received, List.length_append]
    have either (here : Prop) [Decidable here] (note : Note) (position : ℕ) :
        (if here then recordsOf note position else []).length ≤ 1 := by
      split
      · exact single note position
      · exact Nat.zero_le _
    exact Nat.add_le_add (either _ _ _) (either _ _ _)
  rw [Demo.handleAll_told, settles.offered_told reconciled agree found, List.length_append]
  exact Nat.add_le_add (List.length_filter_le ..) received

/-- The leaves that a settled payment adds: two outputs and the reward notes. -/
theorem len_next (at_ : DemoAt state height supply)
    (settles : Settles queries state order payer payee selected tx)
    (reconciled : Reconciled queries state book) :
    (Settles.next state tx).tree.len =
      state.1.ledger.tree.len + 2 + (demoRewards height).shares.length := by
  rw [CommitmentTree.len, Settles.next, Ledger.applyCheckpoint_leaves,
    (state.1.ledger.tracks_stageAll devVerifier [tx]).commitments, (settles.accepted reconciled).1]
  simp [Ledger.rewardNotes, nextRewards_of_demoAt at_, commitmentsOf, CommitmentTree.len]
  exact (Nat.add_assoc ..).symm

theorem payOrFail_of_line {line : String} (logged : (Demo.pay state order).2 = .ok line)
    (name : String) : payOrFail state name order = .ok ((Demo.pay state order).1, line) := by
  have outcome : Demo.pay state order = ((Demo.pay state order).1, .ok line) :=
    Prod.ext rfl logged
  rw [payOrFail, outcome]

/-- The log of a demo whose payments and comparisons succeed. -/
theorem runFunded_of_balances {state next last : Demo × List Wallet} {line line' : String}
    (paid : payOrFail state "alice" toBob = .ok (next, line))
    (paid' : payOrFail next "bob" toCarol = .ok (last, line'))
    (expected : (balanceAt next.2 0 == 750000 && balanceAt next.2 1 == 250000) = true)
    (expected' : (balanceAt last.2 1 == 150000 && balanceAt last.2 2 == 100000) = true) :
    runFunded state = .ok [
      "genesis: alice funded with " ++ toString genesisFund ++ " (balance " ++
        toString (balanceAt state.2 0) ++ ")",
      "alice builds private transfer of 250000 to bob", line, balanceLine 1 next.2,
      "bob builds private transfer of 100000 to carol (chained spend)", line',
      balanceLine 2 last.2,
      "FINAL: alice=750000 bob=150000 carol=100000, supply=" ++
        toString last.1.ledger.supply ++ " audited OK"] := by
  simp only [runFunded, paid, bind, Except.bind, expected, expectBalances, if_true, paid',
    expected']
  rfl

end Settling

/-! ## The whole demo -/

section Whole

variable {queries : Set Query} (contract : DemoContract queries)
include contract

/-- Alice opens her genesis note, and the payments start from the funded wallets. -/
theorem runDemo_eq : runDemo = runFunded demoStart := by
  have payable : (encryptNote aliceNote alice.address (Bytes.filled memoLen 0)
      (Bytes.filled 32 0xE1)).isSome = true :=
    (Wallet.encryptNote_isSome_iff ..).mpr
      (Option.isSome_of_eq_some (contract.agree.kemNew_kemToBytes _))
  obtain ⟨ct, encrypted⟩ := Option.isSome_iff_exists.mp payable
  have opened : tryDecrypt ct alice.sk.incomingViewingKey = some aliceNote :=
    opens_of_encryptNote contract.agree encrypted rfl
  have received : alice.tryReceive ct 0 =
      ({ alice with unspent := [⟨aliceNote, 0⟩] }, true) := by
    rw [Wallet.tryReceive, opened]
    rfl
  simp only [runDemo, encrypted, received]
  rfl

omit contract [Ciphers] in
theorem demoAt_start : DemoAt demoStart 0 1000000 := by
  constructor <;> simp [demoStart, demoLedger, Ledger.genesis_eq, genesisFund]

/-- Alice pays Bob. -/
theorem toBob_settles : ∃ selected tx, Settles queries demoStart toBob
    { alice with unspent := [⟨aliceNote, 0⟩] } bob selected tx := by
  refine contract.exists_settles contract.reconciled_start rfl rfl ?_ ?_ ?_ contract.unlinked.1
    nofun
  · change 1 ≤ 2 ^ 32
    decide
  · change 1000000 < maxMoney.toNat
    decide
  · refine ⟨[⟨aliceNote, 0⟩], .refl _, ?_, ?_⟩
    · change 1 ≤ 2
      decide
    · rw [recordSum_singleton]
      change (250000 : UInt64).toNat ≤ genesisFund.toNat
      decide

/-- Bob pays Carol out of what he has received. -/
theorem toCarol_settles {book : ℕ → ℕ}
    (reconciled : Reconciled queries (Demo.pay demoStart toBob).1 book) (held : book 1 = 250000) :
    ∃ payer payee selected tx, Settles queries (Demo.pay demoStart toBob).1 toCarol payer payee
      selected tx := by
  obtain ⟨selected, tx, first⟩ := toBob_settles contract
  have start := contract.reconciled_start
  have bobFirst : demoStart.2[1]? = some bob := rfl
  have bobAt : (Demo.pay demoStart toBob).1.2[1]? =
      some (bob.handleAll (demoStart.1.told [tx])) := by
    rw [first.pay_eq]
    rfl
  have carolAt : (Demo.pay demoStart toBob).1.2[2]? =
      some (carol.handleAll (demoStart.1.told [tx])) := by
    rw [first.pay_eq]
    rfl
  have room : (Demo.pay demoStart toBob).1.1.ledger.tree.len ≤ 2 ^ treeDepth := by
    rw [first.pay_eq, len_next demoAt_start first start]
    change 1 + 2 + (demoRewards 0).shares.length ≤ 2 ^ 32
    decide
  have coverable : (bob.handleAll (demoStart.1.told [tx])).Coverable toCarol.amount := by
    refine ⟨_, .refl _, ?_, ?_⟩
    · exact length_unspent_next first start contract.agree bobFirst
    · rw [reconciled.balances 1 _ bobAt, held]
      decide
  have others : ∀ nf ∈ (Demo.pay demoStart toBob).1.1.ledger.nullifiers,
      ∃ (nk : Bytes32) (note : Note), nf = note.nullifier nk ∧
        nullifierQuery nk note.rho ∈ queries ∧
        nk ≠ (bob.handleAll (demoStart.1.told [tx])).sk.nk := by
    intro nf spent
    have named : nf ∈ nullifiersOf [tx] := by
      rw [first.pay_eq] at spent
      have spent' : nf ∈ (Settles.next demoStart tx).nullifiers := spent
      rw [first.nullifiers_next start, Finset.mem_union, List.mem_toFinset] at spent'
      exact spent'.resolve_left (Finset.notMem_empty _)
    obtain ⟨note, same, asked, -⟩ := contract.inStep_funded.exists_note_of_mem first.held
      (first.mem_nullifiers_iff.mp named)
    refine ⟨_, note, same, asked, ?_⟩
    rw [Wallet.sk_handleAll]
    exact contract.nk_ne 1 2 (by decide) (by decide) (by decide)
  obtain ⟨selected', tx', second⟩ := contract.exists_settles reconciled bobAt carolAt room
    (by rw [show toCarol.payer = 1 from rfl, held]; decide) coverable contract.unlinked.2.1 others
  exact ⟨_, _, selected', tx', second⟩

/-- The demo runs to its end and logs the same lines for every hash and all ciphers that keep
its contract: both payments are built, accepted and received, every comparison of balances
holds, and both audits succeed. -/
theorem runDemo_log :
    runDemo = .ok ["genesis: alice funded with 1000000 (balance 1000000)",
      "alice builds private transfer of 250000 to bob",
      "checkpoint 1 sealed: 1 accepted, 0 rejected, emission 9995, supply 1009995 (audit OK)",
      "after cp1: alice=750000 bob=250000 carol=0",
      "bob builds private transfer of 100000 to carol (chained spend)",
      "checkpoint 2 sealed: 1 accepted, 0 rejected, emission 9990, supply 1019985 (audit OK)",
      "after cp2: alice=750000 bob=150000 carol=100000",
      "FINAL: alice=750000 bob=150000 carol=100000, supply=1019985 audited OK"] := by
  have start := contract.reconciled_start
  have funded : balanceAt demoStart.2 0 = 1000000 :=
    balanceAt_of_reconciled start (show 0 < 3 by decide)
  obtain ⟨selected, tx, first⟩ := toBob_settles contract
  obtain ⟨book, paid, reconciled⟩ := first.reconciled_next start contract.agree contract.free
  have three : (Demo.pay demoStart toBob).1.2.length = 3 := Demo.length_pay ..
  have book_eq : book 0 = 750000 ∧ book 1 = 250000 ∧ book 2 = 0 := by
    obtain ⟨-, rfl⟩ := Accounts.pay_eq_some_iff.mp paid
    exact ⟨rfl, rfl, rfl⟩
  obtain ⟨payer, payee, selected', tx', second⟩ := toCarol_settles contract reconciled book_eq.2.1
  obtain ⟨book', paid', reconciled'⟩ :=
    second.reconciled_next reconciled contract.agree contract.free
  have book_eq' : book' 0 = 750000 ∧ book' 1 = 150000 ∧ book' 2 = 100000 := by
    obtain ⟨-, rfl⟩ := Accounts.pay_eq_some_iff.mp paid'
    simp [Accounts.paid, PaymentOrder.payment, toCarol, book_eq]
  have balance (i : ℕ) (inside : i < 3) :
      balanceAt (Demo.pay demoStart toBob).1.2 i = UInt64.ofNat (book i) :=
    balanceAt_of_reconciled reconciled (by rwa [three])
  have balance' (i : ℕ) (inside : i < 3) :
      balanceAt (Demo.pay (Demo.pay demoStart toBob).1 toCarol).1.2 i = UInt64.ofNat (book' i) :=
    balanceAt_of_reconciled reconciled' (by rwa [Demo.length_pay, three])
  have at1 := demoAt_pay demoAt_start first
  have line1 := payOrFail_of_line (line_of_settles demoAt_start first start) "alice"
  have line2 := payOrFail_of_line (line_of_settles at1 second reconciled) "bob"
  have supply := (demoAt_pay at1 second).supply
  rw [runDemo_eq contract, runFunded_of_balances line1 line2
    (by rw [balance 0 (by decide), balance 1 (by decide), book_eq.1, book_eq.2.1]; rfl)
    (by rw [balance' 1 (by decide), balance' 2 (by decide), book_eq'.2.1, book_eq'.2.2]; rfl)]
  have after1 : balanceLine 1 (Demo.pay demoStart toBob).1.2 =
      "after cp1: alice=750000 bob=250000 carol=0" := by
    rw [balanceLine, balance 0 (by decide), balance 1 (by decide), balance 2 (by decide),
      book_eq.1, book_eq.2.1, book_eq.2.2]
    decide +kernel
  have after2 : balanceLine 2 (Demo.pay (Demo.pay demoStart toBob).1 toCarol).1.2 =
      "after cp2: alice=750000 bob=150000 carol=100000" := by
    rw [balanceLine, balance' 0 (by decide), balance' 1 (by decide), balance' 2 (by decide),
      book_eq'.1, book_eq'.2.1, book_eq'.2.2]
    decide +kernel
  rw [funded, after1, after2, supply]
  decide +kernel

end Whole

end Demo

section Samples

open Reference

/-- The transaction of an order, if it is built. -/
def orderTx (state : Demo × List Wallet) (order : PaymentOrder) : TxV1 :=
  match state.2[order.payer]?, state.2[order.payee]? with
  | some payer, some payee =>
      match payer.buildTransfer payee.address order.amount state.1.anchor state.1.ledger.treeWitness
          order.rngSeed with
      | .ok tx => tx
      | .error _ => sampleTx
  | _, _ => sampleTx

def demoTx1 : TxV1 := orderTx demoStart toBob

def demoTx2 : TxV1 := orderTx (Demo.pay demoStart toBob).1 toCarol

/-- The queries of one payment. -/
def paymentQueries (payer payee : Wallet) (tx : TxV1) : List Query :=
  [rhoTransferQuery (tx.nullifiers.get 0) 0, rhoTransferQuery (tx.nullifiers.get 0) 1,
    nullifierQuery payee.sk.nk (rhoTransfer (tx.nullifiers.get 0) 0),
    nullifierQuery payer.sk.nk (rhoTransfer (tx.nullifiers.get 0) 1)]

/-- The queries of the demo. -/
def demoQueries : List Query :=
  nkQueries (Bytes.filled 32 1) ++ nkQueries (Bytes.filled 32 2) ++ nkQueries (Bytes.filled 32 3) ++
    [dummyRhoQuery 0, dummyRhoQuery 1, rhoMintQuery 0 0,
      nullifierQuery alice.sk.nk aliceNote.rho] ++
    [alice, bob, carol].flatMap (fun wallet =>
      [nullifierQuery wallet.sk.nk (dummyInput 0).note.rho,
        nullifierQuery wallet.sk.nk (dummyInput 1).note.rho]) ++
    paymentQueries alice bob demoTx1 ++ paymentQueries bob carol demoTx2

theorem demoQueries_free : CollisionFree {query | query ∈ demoQueries} :=
  CollisionFree.of_pairwise (by decide +kernel)

/-- No wallet but the addressee opens the ciphertext. -/
def SealedFor (state : Demo × List Wallet) (addressee : ℕ) (enc : EncryptedOutput) : Prop :=
  ∀ i < state.2.length, i ≠ addressee →
    ((state.2[i]?).bind fun wallet => tryDecrypt enc wallet.sk.incomingViewingKey) = none

instance (state : Demo × List Wallet) (addressee : ℕ) (enc : EncryptedOutput) :
    Decidable (SealedFor state addressee enc) :=
  inferInstanceAs (Decidable (∀ i < state.2.length, i ≠ addressee →
    ((state.2[i]?).bind fun wallet => tryDecrypt enc wallet.sk.incomingViewingKey) = none))

/-- An order of the demo is unlinked when its queries are listed and its ciphertexts sealed. -/
theorem unlinkedOrder_of_sealed {state : Demo × List Wallet} {order : PaymentOrder}
    (asked : ∀ payer payee, state.2[order.payer]? = some payer →
      state.2[order.payee]? = some payee →
        ∀ query ∈ paymentQueries payer payee (orderTx state order), query ∈ demoQueries)
    (sealed : SealedFor state order.payee ((orderTx state order).encOutputs.get 0) ∧
      SealedFor state order.payer ((orderTx state order).encOutputs.get 1)) :
    UnlinkedOrder {query | query ∈ demoQueries} state order := by
  intro payer payee tx payerAt payeeAt built
  obtain rfl : orderTx state order = tx := by
    simp only [orderTx, payerAt, payeeAt, built]
  have listed := asked payer payee payerAt payeeAt
  have closed {addressee : ℕ} {enc : EncryptedOutput} (only : SealedFor state addressee enc) (i : ℕ)
      (wallet : Wallet) (found : state.2[i]? = some wallet) (other : i ≠ addressee) :
      tryDecrypt enc wallet.sk.incomingViewingKey = none := by
    simpa [found] using only i (List.getElem?_eq_some_iff.mp found).1 other
  exact {
    payment_nonce := listed _ (by simp [paymentQueries])
    change_nonce := listed _ (by simp [paymentQueries])
    payment_asked := listed _ (by simp [paymentQueries])
    change_asked := listed _ (by simp [paymentQueries])
    payment_sealed := closed sealed.1
    change_sealed := closed sealed.2 }

theorem demo_sealed :
    (SealedFor demoStart 1 (demoTx1.encOutputs.get 0) ∧
      SealedFor demoStart 0 (demoTx1.encOutputs.get 1)) ∧
    (SealedFor (Demo.pay demoStart toBob).1 2 (demoTx2.encOutputs.get 0) ∧
      SealedFor (Demo.pay demoStart toBob).1 1 (demoTx2.encOutputs.get 1)) ∧
    (Demo.pay demoStart toBob).1.2.map (fun wallet => wallet.sk.nk) =
      [alice.sk.nk, bob.sk.nk, carol.sk.nk] := by
  decide +kernel

/-- The reference hash and ciphers keep the contract. -/
theorem demoContract : DemoContract {query | query ∈ demoQueries} where
  agree := reference_agree
  free := demoQueries_free
  keys := by
    intro seed member query asked
    simp only [List.mem_cons, List.not_mem_nil, or_false] at member
    rcases member with rfl | rfl | rfl <;> simp [demoQueries, asked]
  dummies := by
    intro dummyCtr small
    rcases lt_txInputs_iff.mp small with rfl | rfl <;> simp [demoQueries]
  padding := by
    intro wallet member dummyCtr small
    have listed : nullifierQuery wallet.sk.nk (dummyInput dummyCtr).note.rho ∈
        [alice, bob, carol].flatMap fun wallet =>
          [nullifierQuery wallet.sk.nk (dummyInput 0).note.rho,
            nullifierQuery wallet.sk.nk (dummyInput 1).note.rho] := by
      apply List.mem_flatMap.mpr ⟨wallet, member, _⟩
      rcases lt_txInputs_iff.mp small with rfl | rfl <;> simp
    simp only [demoQueries, Set.mem_ofPred_eq, List.mem_append, listed, or_true, true_or]
  minted := by simp [demoQueries]
  funded := by simp [demoQueries]
  unlinked := by
    refine ⟨unlinkedOrder_of_sealed ?_ demo_sealed.1,
      unlinkedOrder_of_sealed ?_ demo_sealed.2.1, trivial⟩
    · intro payer payee payerAt payeeAt query asked
      obtain rfl := Option.some.inj payerAt
      obtain rfl := Option.some.inj payeeAt
      have listed : query ∈ paymentQueries alice bob demoTx1 := asked
      simp only [demoQueries, List.mem_append, listed, or_true, true_or]
    · intro payer payee payerAt payeeAt query asked
      have key {i : ℕ} {wallet : Wallet}
          (found : (Demo.pay demoStart toBob).1.2[i]? = some wallet) :
          [alice.sk.nk, bob.sk.nk, carol.sk.nk][i]? = some wallet.sk.nk := by
        rw [← demo_sealed.2.2, List.getElem?_map, found]
        rfl
      have bobKey : bob.sk.nk = payer.sk.nk := Option.some.inj (key payerAt)
      have carolKey : carol.sk.nk = payee.sk.nk := Option.some.inj (key payeeAt)
      have listed : query ∈ paymentQueries bob carol demoTx2 := by
        rw [paymentQueries, bobKey, carolKey]
        exact asked
      simp only [demoQueries, List.mem_append, listed, or_true]

/-- The demo under the reference hash and ciphers. -/
theorem runDemo_log_sample : runDemo = .ok [
    "genesis: alice funded with 1000000 (balance 1000000)",
    "alice builds private transfer of 250000 to bob",
    "checkpoint 1 sealed: 1 accepted, 0 rejected, emission 9995, supply 1009995 (audit OK)",
    "after cp1: alice=750000 bob=250000 carol=0",
    "bob builds private transfer of 100000 to carol (chained spend)",
    "checkpoint 2 sealed: 1 accepted, 0 rejected, emission 9990, supply 1019985 (audit OK)",
    "after cp2: alice=750000 bob=150000 carol=100000",
    "FINAL: alice=750000 bob=150000 carol=100000, supply=1019985 audited OK"] :=
  runDemo_log demoContract

end Samples

end ShieldedLedger
