import ShieldedLedger.Node.Delivery
import ShieldedLedger.Wallet.Letters

/-!
# Holdings over a ledger of payments

A payment derives the nonces of its two notes from its first nullifier, which the ledger
then spends.  So no two payments make the same nonce, and a wallet that is in step with the
ledger keeps notes with nullifiers of their own through every checkpoint.
-/

namespace ShieldedLedger

section Holdings

variable [Blake3]

/-- Whatever transfer derives the nonce has been spent. -/
def Accounted (queries : Set Query) (spent : Finset Nullifier) (rho : Bytes32) : Prop :=
  ∀ nf index, rhoTransferQuery nf index ∈ queries → rho = rhoTransfer nf index → nf ∈ spent

/-- A nullifier of a note whose nonce is accounted for. -/
def Traced (queries : Set Query) (spent : Finset Nullifier) (nf : Nullifier) : Prop :=
  ∃ (nk : Bytes32) (note : Note), nf = note.nullifier nk ∧
    nullifierQuery nk note.rho ∈ queries ∧ Accounted queries spent note.rho

/-- The query behind the nonce of a padding input. -/
def dummyRhoQuery (dummyCtr : ℕ) : Query :=
  partsQuery "unknown.v0.note.dummy.rho"
    [(Bytes.filled 32 (0xD0 ^^^ UInt8.ofNat dummyCtr)).toList]

omit [Blake3] in
theorem lt_txInputs_iff {n : ℕ} : n < txInputs ↔ n = 0 ∨ n = 1 := by
  change n < 2 ↔ _
  omega

omit [Blake3] in
theorem dummyRhoQuery_inj {left right : ℕ} (leftSmall : left < txInputs)
    (rightSmall : right < txInputs) (same : dummyRhoQuery left = dummyRhoQuery right) :
    left = right := by
  rcases lt_txInputs_iff.mp leftSmall with rfl | rfl <;>
    rcases lt_txInputs_iff.mp rightSmall with rfl | rfl
  · rfl
  · exact absurd same (by decide)
  · exact absurd same (by decide)
  · rfl

variable {queries : Set Query} {spent grown : Finset Nullifier}

theorem Accounted.mono {rho : Bytes32} (accounted : Accounted queries spent rho)
    (subset : spent ⊆ grown) : Accounted queries grown rho :=
  fun nf index asked same => subset (accounted nf index asked same)

theorem Traced.mono {nf : Nullifier} (traced : Traced queries spent nf) (subset : spent ⊆ grown) :
    Traced queries grown nf := by
  obtain ⟨nk, note, same, asked, accounted⟩ := traced
  exact ⟨nk, note, same, asked, accounted.mono subset⟩

/-- A nonce that no query answers is accounted for. -/
theorem accounted_of_unanswered {rho : Bytes32}
    (unanswered : ∀ query ∈ queries, digest query ≠ rho) : Accounted queries spent rho :=
  fun _ _ asked same => absurd same.symm (unanswered _ asked)

section Free

variable (free : CollisionFree queries)
include free

/-- The nonce of a transfer output pins the nullifier it was derived from and the index. -/
theorem parts_eq_of_rhoTransfer {nf nf' : Nullifier} {index index' : UInt8}
    (asked : rhoTransferQuery nf index ∈ queries) (asked' : rhoTransferQuery nf' index' ∈ queries)
    (same : rhoTransfer nf index = rhoTransfer nf' index') : nf = nf' ∧ index = index' := by
  have parts := free.parts_eq asked asked' (by simp) (by simp) same
  simp only [List.cons.injEq, and_true] at parts
  exact ⟨congrArg Nullifier.mk (List.Vector.eq _ _ parts.1), parts.2⟩

/-- No transfer derives the nonce of a dummy. -/
theorem dummy_rho_ne {dummyCtr : ℕ} (dummyAsked : dummyRhoQuery dummyCtr ∈ queries)
    {nf : Nullifier} {index : UInt8} (asked : rhoTransferQuery nf index ∈ queries) :
    (dummyInput dummyCtr).note.rho ≠ rhoTransfer nf index :=
  free.ne_of_context dummyAsked asked (by decide : "unknown.v0.note.dummy.rho" ≠ ds.rhoTransfer)

theorem accounted_dummy {dummyCtr : ℕ} (dummyAsked : dummyRhoQuery dummyCtr ∈ queries) :
    Accounted queries spent (dummyInput dummyCtr).note.rho :=
  fun _ _ asked same => absurd same (dummy_rho_ne free dummyAsked asked)

theorem accounted_rhoTransfer {first : Nullifier} {index : UInt8}
    (asked : rhoTransferQuery first index ∈ queries) (member : first ∈ grown) :
    Accounted queries grown (rhoTransfer first index) := by
  intro nf other otherAsked same
  obtain ⟨rfl, -⟩ := parts_eq_of_rhoTransfer free asked otherAsked same
  exact member

/-- A note derived from an unspent nullifier has a nullifier that nothing traced has. -/
theorem not_traced_of_unspent {first : Nullifier} {index : UInt8}
    (asked : rhoTransferQuery first index ∈ queries) (unspent : first ∉ spent) {note : Note}
    (derived : note.rho = rhoTransfer first index) {nk : Bytes32}
    (noteAsked : nullifierQuery nk note.rho ∈ queries) :
    ¬Traced queries spent (note.nullifier nk) := by
  rintro ⟨nk', note', same, asked', accounted⟩
  have nonces := (parts_eq_of_nullifier free noteAsked asked' same).2
  exact unspent (accounted first index asked (nonces ▸ derived))

end Free

/-- A wallet in step with the ledger whose notes have nullifiers of their own. -/
structure InStep (queries : Set Query) (ledger : Ledger) (wallet : Wallet) : Prop where
  synced : Synced wallet ledger
  once : (wallet.unspent.map wallet.nullifierOf).Nodup
  asked : ∀ record ∈ wallet.unspent, nullifierQuery wallet.sk.nk record.note.rho ∈ queries
  accounted : ∀ record ∈ wallet.unspent,
    Accounted queries ledger.nullifiers record.note.rho
  apart : ∀ record ∈ wallet.unspent, ∀ dummyCtr < txInputs,
    record.note.rho ≠ (dummyInput dummyCtr).note.rho
  padding : ∀ dummyCtr < txInputs,
    nullifierQuery wallet.sk.nk (dummyInput dummyCtr).note.rho ∈ queries

namespace InStep

variable {ledger : Ledger} {wallet : Wallet} (inStep : InStep queries ledger wallet)
include inStep

theorem traced_of_mem {record : NoteRecord} (held : record ∈ wallet.unspent) :
    Traced queries ledger.nullifiers (wallet.nullifierOf record) :=
  ⟨_, _, rfl, inStep.asked record held, inStep.accounted record held⟩

/-- The inputs of a payment of the wallet: its own notes and its dummies. -/
theorem exists_note_of_mem {selected : List NoteRecord}
    (held : ∀ record ∈ selected, record ∈ wallet.unspent) {nf : Nullifier}
    (member : nf ∈ wallet.inputNullifiers selected) :
    ∃ note : Note, nf = note.nullifier wallet.sk.nk ∧
      nullifierQuery wallet.sk.nk note.rho ∈ queries ∧
      ((∃ record ∈ wallet.unspent, record.note = note) ∨
        ∃ dummyCtr < txInputs, (dummyInput dummyCtr).note = note) := by
  rcases List.mem_append.mp member with real | padding
  · obtain ⟨record, chosen, rfl⟩ := List.mem_map.mp real
    exact ⟨_, rfl, inStep.asked record (held record chosen), .inl ⟨record, held record chosen, rfl⟩⟩
  · obtain ⟨dummyCtr, inside, rfl⟩ := List.mem_map.mp padding
    have small : dummyCtr < txInputs := (List.mem_range.mp inside).trans_le (Nat.sub_le _ _)
    exact ⟨_, rfl, inStep.padding dummyCtr small, .inr ⟨dummyCtr, small, rfl⟩⟩

/-- The nullifiers of a payment of the wallet are traced. -/
theorem traced_inputNullifiers (free : CollisionFree queries)
    (dummies : ∀ dummyCtr < txInputs, dummyRhoQuery dummyCtr ∈ queries)
    {selected : List NoteRecord} (held : ∀ record ∈ selected, record ∈ wallet.unspent)
    {nf : Nullifier} (member : nf ∈ wallet.inputNullifiers selected) :
    Traced queries ledger.nullifiers nf := by
  obtain ⟨note, same, asked, ⟨record, recordMem, rfl⟩ | ⟨dummyCtr, small, rfl⟩⟩ :=
    inStep.exists_note_of_mem held member
  · exact ⟨_, _, same, asked, inStep.accounted record recordMem⟩
  · exact ⟨_, _, same, asked, accounted_dummy free (dummies dummyCtr small)⟩

/-- A payment of the wallet names exactly the selected ones of its notes. -/
theorem mem_inputNullifiers_iff (free : CollisionFree queries) {selected : List NoteRecord}
    (chosen : ∀ record ∈ selected, record ∈ wallet.unspent) {record : NoteRecord}
    (held : record ∈ wallet.unspent) :
    wallet.nullifierOf record ∈ wallet.inputNullifiers selected ↔ record ∈ selected := by
  constructor
  · intro named
    rcases List.mem_append.mp named with real | padding
    · obtain ⟨other, otherMem, same⟩ := List.mem_map.mp real
      exact List.inj_on_of_nodup_map inStep.once (chosen other otherMem) held same ▸ otherMem
    · obtain ⟨dummyCtr, inside, same⟩ := List.mem_map.mp padding
      have small : dummyCtr < txInputs := (List.mem_range.mp inside).trans_le (Nat.sub_le _ _)
      have nonces := (parts_eq_of_nullifier free (inStep.padding dummyCtr small)
        (inStep.asked record held) same).2
      exact absurd nonces.symm (inStep.apart record held dummyCtr small)
  · intro member
    exact List.mem_append_left _ (List.mem_map_of_mem member)

/-- No two inputs of a payment of the wallet share a nullifier. -/
theorem nodup_inputNullifiers (free : CollisionFree queries)
    (dummies : ∀ dummyCtr < txInputs, dummyRhoQuery dummyCtr ∈ queries)
    {selected : List NoteRecord} (distinct : selected.Subperm wallet.unspent) :
    (wallet.inputNullifiers selected).Nodup := by
  have small {dummyCtr : ℕ} (inside : dummyCtr ∈ List.range (txInputs - selected.length)) :
      dummyCtr < txInputs := (List.mem_range.mp inside).trans_le (Nat.sub_le _ _)
  rw [Wallet.inputNullifiers, List.nodup_append]
  refine ⟨?_, ?_, ?_⟩
  · obtain ⟨listed, same, sublist⟩ := distinct
    exact (same.map _).nodup_iff.mp (inStep.once.sublist (sublist.map _))
  · apply List.Nodup.map_on _ List.nodup_range
    intro left leftMem right rightMem same
    have nonces : digest (dummyRhoQuery left) = digest (dummyRhoQuery right) :=
      (parts_eq_of_nullifier free (inStep.padding left (small leftMem))
        (inStep.padding right (small rightMem)) same).2
    exact dummyRhoQuery_inj (small leftMem) (small rightMem)
      (free (dummies left (small leftMem)) (dummies right (small rightMem)) nonces)
  · intro left leftMem right rightMem same
    obtain ⟨record, chosen, rfl⟩ := List.mem_map.mp leftMem
    obtain ⟨dummyCtr, inside, rfl⟩ := List.mem_map.mp rightMem
    have held := distinct.subset chosen
    have nonces := (parts_eq_of_nullifier free (inStep.asked record held)
      (inStep.padding dummyCtr (small inside)) same).2
    exact inStep.apart record held dummyCtr (small inside) nonces

/-- A payment of a wallet with another key names none of its notes. -/
theorem not_mem_inputNullifiers (free : CollisionFree queries) {payer : Wallet}
    (paying : InStep queries ledger payer) (other : payer.sk.nk ≠ wallet.sk.nk)
    {selected : List NoteRecord} (chosen : ∀ record ∈ selected, record ∈ payer.unspent)
    {record : NoteRecord} (held : record ∈ wallet.unspent) :
    wallet.nullifierOf record ∉ payer.inputNullifiers selected := by
  intro named
  obtain ⟨note, same, asked, -⟩ := paying.exists_note_of_mem chosen named
  exact other (parts_eq_of_nullifier free asked (inStep.asked record held) same.symm).1

end InStep

/-- A receipt of a checkpoint, with a nonce derived from a nullifier. -/
structure Receipt (queries : Set Query) (first : Nullifier) (ledger next : Ledger)
    (wallet : Wallet) (record : NoteRecord) : Prop where
  owned : record.note.addrTag = wallet.sk.addrTag
  backed : next.tree.leaves[record.position]? = some record.note.commitment.bytes
  added : ledger.tree.leaves.length ≤ record.position
  derived : ∃ index, rhoTransferQuery first index ∈ queries ∧
    record.note.rho = rhoTransfer first index
  asked : nullifierQuery wallet.sk.nk record.note.rho ∈ queries

namespace InStep

variable {ledger : Ledger} {wallet : Wallet} {verifier : SpendVerifier} {batch : List TxV1}
  {first : Nullifier} {received : List NoteRecord}

/-- Nothing the ledger has spent after the checkpoint names a receipt. -/
theorem not_spent_of_receipt (free : CollisionFree queries) (unspent : first ∉ ledger.nullifiers)
    {next : Ledger} (traced : ∀ nf ∈ next.nullifiers, Traced queries ledger.nullifiers nf)
    {record : NoteRecord} (receipt : Receipt queries first ledger next wallet record) :
    wallet.nullifierOf record ∉ next.nullifiers := by
  obtain ⟨index, asked, derived⟩ := receipt.derived
  exact fun spent =>
    not_traced_of_unspent free asked unspent derived receipt.asked (traced _ spent)

/-- A wallet that receives notes of a transfer and observes the checkpoint stays in step. -/
theorem receive (inStep : InStep queries ledger wallet) (free : CollisionFree queries)
    (dummies : ∀ dummyCtr < txInputs, dummyRhoQuery dummyCtr ∈ queries)
    (unspent : first ∉ ledger.nullifiers)
    (spends : first ∈ (ledger.applyCheckpoint verifier batch).1.nullifiers)
    (receipts : ∀ record ∈ received,
      Receipt queries first ledger (ledger.applyCheckpoint verifier batch).1 wallet record)
    (positions : (received.map NoteRecord.position).Nodup)
    (apart : (received.map wallet.nullifierOf).Nodup) :
    InStep queries (ledger.applyCheckpoint verifier batch).1
      ({ wallet with unspent := wallet.unspent ++ received }.observeNullifiers
        (nullifiersOf (acceptedOf (ledger.verdicts verifier batch)))) := by
  have grown : ledger.nullifiers ⊆ (ledger.applyCheckpoint verifier batch).1.nullifiers := by
    rw [Ledger.applyCheckpoint_nullifiers]
    exact Finset.subset_union_left
  have each {property : NoteRecord → Prop} (old : ∀ record ∈ wallet.unspent, property record)
      (new : ∀ record ∈ received, property record) (record : NoteRecord)
      (member : record ∈ ({ wallet with unspent := wallet.unspent ++ received }.observeNullifiers
        (nullifiersOf (acceptedOf (ledger.verdicts verifier batch)))).unspent) :
      property record :=
    (List.mem_append.mp (List.mem_of_mem_filter member)).elim (old record) (new record)
  have distinct : ((wallet.unspent ++ received).map wallet.nullifierOf).Nodup := by
    rw [List.map_append, List.nodup_append]
    refine ⟨inStep.once, apart, fun left leftMem right rightMem same => ?_⟩
    obtain ⟨old, oldMem, rfl⟩ := List.mem_map.mp leftMem
    obtain ⟨new, newMem, rfl⟩ := List.mem_map.mp rightMem
    obtain ⟨index, asked, derived⟩ := (receipts new newMem).derived
    have traced := inStep.traced_of_mem oldMem
    rw [same] at traced
    exact not_traced_of_unspent free asked unspent derived (receipts new newMem).asked traced
  exact {
    synced := inStep.synced.observe verifier batch
      (fun record member => (receipts record member).owned)
      (fun record member => (receipts record member).backed) positions
      (fun record member => (receipts record member).added)
    once := distinct.sublist (List.filter_sublist.map _)
    asked := each inStep.asked fun record member => (receipts record member).asked
    accounted := each (fun record member => (inStep.accounted record member).mono grown)
      fun record member => by
        obtain ⟨index, asked, derived⟩ := (receipts record member).derived
        rw [derived]
        exact accounted_rhoTransfer free asked spends
    apart := each inStep.apart fun record member dummyCtr small => by
      obtain ⟨index, asked, derived⟩ := (receipts record member).derived
      rw [derived]
      exact (dummy_rho_ne free (dummies dummyCtr small) asked).symm
    padding := inStep.padding }

end InStep

end Holdings

end ShieldedLedger
