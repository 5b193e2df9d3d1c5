import ShieldedLedger.Node.Spentness
import ShieldedLedger.Wallet.Sums

/-!
# Rescanning the chain

A wallet that the node served call by call holds what a new wallet of the same
seed finds by one scan of all outputs offered so far, less the notes whose
nullifier has been told.  Served wallets lag by one observation, because a call
tells the nullifiers before it offers the outputs.
-/

namespace ShieldedLedger

open Tombstones

/-- The nullifiers an event tells. -/
def Event.nullifiers : Event → List Nullifier
  | .receive _ _ => []
  | .observe nullifiers => nullifiers

/-- What a checkpoint tells every wallet. -/
def CheckpointSummary.tells (summary : CheckpointSummary) (txs : List TxV1) : List Event :=
  .observe (nullifiersOf txs) :: (summary.offers txs).map fun offer => .receive offer.1 offer.2

section Rescan

variable [Blake3] [Ciphers]

namespace Wallet

omit [Blake3] [Ciphers] in
/-- Wallets of one key with one view are equal. -/
theorem eq_of_view {left right : Wallet} (sk : left.sk = right.sk) (view : left.view = right.view) :
    left = right := by
  obtain ⟨leftKey, leftUnspent, leftSeen⟩ := left
  obtain ⟨rightKey, rightUnspent, rightSeen⟩ := right
  obtain rfl : leftKey = rightKey := sk
  obtain ⟨rfl, rfl⟩ := View.mk.inj view
  rfl

theorem handleAll_append (self : Wallet) (left right : List Event) :
    self.handleAll (left ++ right) = (self.handleAll left).handleAll right :=
  List.foldl_append

/-- Events that end with an observation amount to all receipts at once and then one
observation. -/
theorem observe_handleAll (self : Wallet) (events : List Event) (nullifiers : List Nullifier) :
    (self.handleAll events).observeNullifiers nullifiers =
      { self with unspent := self.received events }.observeNullifiers
        (events.flatMap Event.nullifiers ++ nullifiers) := by
  have keys : Update.keys ∘ self.updateOf = Event.nullifiers := by
    funext event
    cases event <;> rfl
  apply eq_of_view
  · exact self.sk_handleAll events
  · calc ((self.handleAll events).observeNullifiers nullifiers).view
        = (self.handleAll (events ++ [.observe nullifiers])).view := by
          rw [handleAll_append]
          rfl
      _ = self.view.replay self.nullifierOf
            (events.map self.updateOf ++ [.bury nullifiers]) := by
          rw [view_handleAll, List.map_append]
          rfl
      _ = (View.mk (self.received events) self.seenNullifiers).update self.nullifierOf
            (.bury (events.flatMap Event.nullifiers ++ nullifiers)) := by
          rw [View.replay_bury, arrivals_view, List.flatMap_map]
          simp only [Function.comp_def] at keys
          rw [keys]
          rfl

/-- The records that a scan of offered outputs finds: the notes of positive value, at
their positions. -/
def scanned (self : Wallet) (offers : List (EncryptedOutput × ℕ)) : List NoteRecord :=
  (scan (offers.map Prod.fst) self.sk.incomingViewingKey).filterMap fun found =>
    if found.2.value > 0 then (offers[found.1]?).map fun offer => ⟨found.2, offer.2⟩ else none

/-- Rebuild a wallet from its seed: scan all outputs, then drop the notes that have been
spent. -/
def rescan (seed : Bytes32) (offers : List (EncryptedOutput × ℕ)) (nullifiers : List Nullifier) :
    Wallet :=
  let wallet := fromSeed seed
  { wallet with unspent := wallet.scanned offers }.observeNullifiers nullifiers

/-- A scan finds what receiving the outputs one by one would add. -/
theorem scanned_eq_offered (self : Wallet) (offers : List (EncryptedOutput × ℕ)) :
    self.scanned offers =
      (offers.map fun offer => Event.receive offer.1 offer.2).flatMap self.offered := by
  have one (entry : (EncryptedOutput × ℕ) × ℕ) (member : entry ∈ offers.zipIdx) :
      ((tryDecrypt entry.1.1 self.sk.incomingViewingKey).map fun note => (entry.2, note)).bind
        (fun found => if found.2.value > 0 then
          (offers[found.1]?).map fun offer => NoteRecord.mk found.2 offer.2 else none) =
      (self.offered (.receive entry.1.1 entry.1.2)).head? := by
    obtain ⟨offer, i⟩ := entry
    have found : offers[i]? = some offer := List.mk_mem_zipIdx_iff_getElem?.mp member
    unfold offered
    cases opened : tryDecrypt offer.1 self.sk.incomingViewingKey with
    | none => simp [opened]
    | some note => by_cases positive : note.value > 0 <;> simp [opened, positive, found]
  have single (event : Event) : (self.offered event).head?.toList = self.offered event := by
    unfold offered
    split
    · split
      · split <;> rfl
      · rfl
    · rfl
  calc self.scanned offers
      = offers.zipIdx.filterMap fun entry =>
          (self.offered (.receive entry.1.1 entry.1.2)).head? := by
        rw [scanned, scan, List.zipIdx_map, List.filterMap_map, List.filterMap_filterMap]
        exact List.filterMap_congr one
    _ = (offers.zipIdx.map Prod.fst).filterMap fun offer =>
          (self.offered (.receive offer.1 offer.2)).head? := by
        rw [List.filterMap_map]
        rfl
    _ = offers.flatMap fun offer => self.offered (.receive offer.1 offer.2) := by
        rw [List.zipIdx_map_fst, List.filterMap_eq_flatMap_toList]
        simp only [single]
    _ = _ := by rw [List.flatMap_map]

end Wallet

namespace Demo

/-- What a run of calls tells every wallet. -/
def chain (self : Demo) (calls : List Call) : List (List TxV1 × CheckpointSummary) :=
  let batches := calls.map Call.txs
  batches.zip (self.ledger.run devVerifier batches).2

/-- A run serves a wallet everything that its checkpoints tell. -/
theorem serve_run_wallet (self : Demo) (wallet : Wallet) (calls : List Call) :
    (Machine.run serve (self, wallet) calls).1.2 =
      wallet.handleAll ((self.chain calls).flatMap fun entry => entry.2.tells entry.1) := by
  induction calls generalizing self wallet with
  | nil => rfl
  | cons call calls ih =>
      have step := serve_wallet (self, wallet) call
      have later := ih (serve (self, wallet) call).1.1 (serve (self, wallet) call).1.2
      rw [Machine.run_cons]
      refine later.trans ?_
      rw [step, chain, chain, Ledger.run, Ledger.run, List.map_cons, Machine.run_cons,
        List.zip_cons_cons, List.flatMap_cons, Wallet.handleAll_append]
      rfl

end Demo

/-- A served wallet recovers from its seed.  After every run of calls, served alone or among
other wallets, the wallet of a seed is, once it observes again, exactly the wallet that one
scan of the offered outputs and one observation of the told nullifiers make of the seed. -/
theorem rescan_recovers (demo : Demo) (seed : Bytes32) (calls : List Call) :
    let served := (Machine.run Demo.serve (demo, Wallet.fromSeed seed) calls).1.2
    let offers := (demo.chain calls).flatMap fun entry => entry.2.offers entry.1
    let told := nullifiersOf (calls.flatMap Call.txs)
    served.observeNullifiers [] = Wallet.rescan seed offers told := by
  intro served offers told
  have events : served = (Wallet.fromSeed seed).handleAll
      ((demo.chain calls).flatMap fun entry => entry.2.tells entry.1) :=
    demo.serve_run_wallet _ calls
  have batches : (demo.chain calls).map Prod.fst = calls.map Call.txs :=
    List.map_fst_zip (by rw [Ledger.run, Machine.length_outputs])
  have nullifiers : ((demo.chain calls).flatMap fun entry => entry.2.tells entry.1).flatMap
      Event.nullifiers = told := by
    have one (entry : List TxV1 × CheckpointSummary) :
        (entry.2.tells entry.1).flatMap Event.nullifiers = nullifiersOf entry.1 := by
      rw [CheckpointSummary.tells, List.flatMap_cons, List.flatMap_map,
        List.flatMap_eq_nil_iff.mpr fun offer _ => (rfl : (Event.receive ..).nullifiers = []),
        List.append_nil]
      rfl
    calc ((demo.chain calls).flatMap fun entry => entry.2.tells entry.1).flatMap Event.nullifiers
        = (demo.chain calls).flatMap fun entry => nullifiersOf entry.1 := by
          rw [List.flatMap_assoc]
          simp only [one]
      _ = ((demo.chain calls).map Prod.fst).flatMap nullifiersOf := by rw [List.flatMap_map]
      _ = told := by
          rw [batches, List.flatMap_map]
          exact List.flatMap_assoc.symm
  have records : (Wallet.fromSeed seed).received
      ((demo.chain calls).flatMap fun entry => entry.2.tells entry.1) =
        (Wallet.fromSeed seed).scanned offers := by
    rw [Wallet.scanned_eq_offered, List.map_flatMap, List.flatMap_assoc]
    change [] ++ _ = _
    rw [List.nil_append, List.flatMap_assoc]
    rfl
  rw [events, Wallet.observe_handleAll, nullifiers, records, List.append_nil]
  rfl

end Rescan

end ShieldedLedger
