import ShieldedLedger.General.Tombstones
import ShieldedLedger.Wallet.Receipts

/-!
# Views

A wallet learns about the chain from outputs to try and nullifiers to observe.
What it should show depends only on the set of these events: the received notes
that no observed nullifier names.  Receiving a note looks neither at the notes
already held nor at the nullifiers already seen, so the view depends on the order
of the events and on their repetition.
-/

namespace ShieldedLedger

/-- What a wallet is told. -/
inductive Event where
  | receive (enc : EncryptedOutput) (position : ℕ)
  | observe (nullifiers : List Nullifier)

open Tombstones

/-- The balance does not depend on the order of the records. -/
theorem sumValues_perm {left right : List NoteRecord} (perm : left.Perm right) :
    sumValues left = sumValues right := by
  have comm : RightCommutative fun (sum : UInt64) (record : NoteRecord) =>
      sum + record.note.value := ⟨fun sum first second => by
        rw [UInt64.add_assoc, UInt64.add_comm first.note.value, ← UInt64.add_assoc]⟩
  exact perm.foldl_eq 0

section Views

variable [Blake3] [Ciphers]

namespace Wallet

def handle (self : Wallet) : Event → Wallet
  | .receive enc position => (self.tryReceive enc position).1
  | .observe nullifiers => self.observeNullifiers nullifiers

def handleAll (self : Wallet) (events : List Event) : Wallet := events.foldl handle self

/-- The record an event offers the wallet: its own note of positive value. -/
def offered (self : Wallet) : Event → List NoteRecord
  | .receive enc position =>
      match tryDecrypt enc self.sk.incomingViewingKey with
      | some note => if note.value > 0 then [⟨note, position⟩] else []
      | none => []
  | .observe _ => []

/-- The records held from the start or received. -/
def received (self : Wallet) (events : List Event) : List NoteRecord :=
  self.unspent ++ events.flatMap self.offered

/-- The records received since the last observation, or held if there is none. -/
def receivedSince (self : Wallet) (events : List Event) : List NoteRecord :=
  events.foldl (fun since event =>
    match event with
    | .receive enc position => since ++ self.offered (.receive enc position)
    | .observe _ => []) self.unspent

/-- An observed nullifier names the note of a record. -/
def SpentBy (self : Wallet) (events : List Event) (record : NoteRecord) : Prop :=
  record.note.nullifier self.sk.nk ∈ self.seenNullifiers ∨
    ∃ nullifiers, .observe nullifiers ∈ events ∧ record.note.nullifier self.sk.nk ∈ nullifiers

/-- The wallet holds the received records that are not spent, each once. -/
structure ShowsUnspent (wallet : Wallet) (events : List Event) : Prop where
  once : (wallet.handleAll events).unspent.Nodup
  shown : ∀ record, record ∈ (wallet.handleAll events).unspent ↔
    record ∈ wallet.received events ∧ ¬wallet.SpentBy events record

/-- An observation follows every receipt of a spent note, and no unspent note is received
twice. -/
structure SettledBy (wallet : Wallet) (events : List Event) : Prop where
  observed : ∀ record ∈ wallet.receivedSince events, ¬wallet.SpentBy events record
  once : ∀ record, ¬wallet.SpentBy events record → (wallet.received events).count record ≤ 1

/-- The holdings of a wallet with the nullifiers it has seen as tombstones. -/
def view (self : Wallet) : View NoteRecord Nullifier := ⟨self.unspent, self.seenNullifiers⟩

/-- The update an event makes to the view. -/
def updateOf (self : Wallet) : Event → Update NoteRecord Nullifier
  | .receive enc position => .add (self.offered (.receive enc position))
  | .observe nullifiers => .bury nullifiers

/-- The key of a record in the view. -/
def nullifierOf (self : Wallet) (record : NoteRecord) : Nullifier :=
  record.note.nullifier self.sk.nk

@[simp] theorem offered_observe (self : Wallet) (nullifiers : List Nullifier) :
    self.offered (.observe nullifiers) = [] := rfl

/-- A receipt appends the offered record, if any. -/
theorem tryReceive_fst (self : Wallet) (enc : EncryptedOutput) (position : ℕ) :
    (self.tryReceive enc position).1 =
      { self with unspent := self.unspent ++ self.offered (.receive enc position) } := by
  unfold tryReceive offered
  cases opened : tryDecrypt enc self.sk.incomingViewingKey with
  | none => simp [opened]
  | some note =>
      by_cases positive : note.value > 0
      · simp [opened, positive]
      · simp [opened, positive]

@[simp] theorem sk_handle (self : Wallet) (event : Event) : (self.handle event).sk = self.sk := by
  cases event with
  | receive enc position => rw [handle, tryReceive_fst]
  | observe nullifiers => rfl

/-- An event updates the view. -/
theorem view_handle (self : Wallet) (event : Event) :
    (self.handle event).view = self.view.update self.nullifierOf (self.updateOf event) := by
  cases event with
  | receive enc position =>
      rw [handle, tryReceive_fst]
      rfl
  | observe nullifiers => rfl

/-- All events update the view one after the other. -/
theorem view_handleAll (self : Wallet) (events : List Event) :
    (self.handleAll events).view =
      self.view.replay self.nullifierOf (events.map self.updateOf) := by
  have together : (self.handleAll events).sk = self.sk ∧ (self.handleAll events).view =
      self.view.replay self.nullifierOf (events.map self.updateOf) := by
    induction events using List.reverseRecOn with
    | nil => exact ⟨rfl, rfl⟩
    | append_singleton events last ih =>
        obtain ⟨key, viewed⟩ := ih
        have step : self.handleAll (events ++ [last]) = (self.handleAll events).handle last := by
          simp [handleAll]
        have sameKey : (self.handleAll events).nullifierOf = self.nullifierOf := by
          funext record
          rw [nullifierOf, key, nullifierOf]
        have sameUpdate : (self.handleAll events).updateOf last = self.updateOf last := by
          cases last with
          | receive enc position => simp only [updateOf, offered, key]
          | observe nullifiers => rfl
        rw [step]
        constructor
        · rw [sk_handle, key]
        · rw [view_handle, sameKey, sameUpdate, viewed, List.map_append, List.map_singleton,
            View.replay_snoc]
  exact together.2

theorem arrivals_view (self : Wallet) (events : List Event) :
    self.view.arrivals (events.map self.updateOf) = self.received events := by
  have items : Update.items ∘ self.updateOf = self.offered := by
    funext event
    cases event with
    | receive enc position => rfl
    | observe nullifiers => rfl
  rw [View.arrivals, received, List.flatMap_map, ← items]
  rfl

theorem waiting_view (self : Wallet) (events : List Event) :
    self.view.waiting (events.map self.updateOf) = self.receivedSince events := by
  rw [View.waiting, receivedSince, List.foldl_map]
  congr 1
  funext since event
  cases event with
  | receive enc position => rfl
  | observe nullifiers => rfl

theorem gone_view {self : Wallet} {events : List Event} {record : NoteRecord} :
    self.view.Gone self.nullifierOf (events.map self.updateOf) record ↔
      self.SpentBy events record := by
  unfold View.Gone SpentBy
  refine or_congr Iff.rfl ?_
  rw [List.flatMap_map, List.mem_flatMap]
  constructor
  · intro found
    obtain ⟨event, member, inside⟩ := found
    cases event with
    | receive enc position => exact absurd inside List.not_mem_nil
    | observe nullifiers => exact ⟨nullifiers, member, inside⟩
  · intro found
    obtain ⟨nullifiers, member, inside⟩ := found
    exact ⟨.observe nullifiers, member, inside⟩

theorem showsUnspent_iff_shows {self : Wallet} {events : List Event} :
    self.ShowsUnspent events ↔
      self.view.Shows self.nullifierOf (events.map self.updateOf) := by
  have held : (self.view.replay self.nullifierOf (events.map self.updateOf)).held =
      (self.handleAll events).unspent := by
    rw [← view_handleAll]
    rfl
  constructor
  · intro shows
    constructor
    · rw [held]
      exact shows.once
    · intro record
      rw [held, arrivals_view, gone_view]
      exact shows.shown record
  · intro shows
    constructor
    · rw [← held]
      exact shows.once
    · intro record
      rw [← held, ← arrivals_view, ← gone_view]
      exact shows.shown record

theorem settledBy_iff_settled {self : Wallet} {events : List Event} :
    self.SettledBy events ↔
      self.view.Settled self.nullifierOf (events.map self.updateOf) := by
  constructor
  · intro settled
    constructor
    · intro record waits
      rw [waiting_view] at waits
      rw [gone_view]
      exact settled.observed record waits
    · intro record unspent
      rw [gone_view] at unspent
      rw [arrivals_view]
      exact settled.once record unspent
  · intro settled
    constructor
    · intro record since
      rw [← waiting_view] at since
      rw [← gone_view]
      exact settled.buried record since
    · intro record unspent
      rw [← gone_view] at unspent
      rw [← arrivals_view]
      exact settled.once record unspent

theorem showsUnspent_iff {self : Wallet} {events : List Event} :
    self.ShowsUnspent events ↔ self.SettledBy events := by
  rw [showsUnspent_iff_shows, settledBy_iff_settled, View.shows_iff]

/-- Wallets told the same events in any order and any number of times show the same
unspent records, each once, and the same balance, exactly when both tellings are settled. -/
theorem view_independent_iff (wallet : Wallet) (left right : List Event)
    (same : ∀ event, event ∈ left ↔ event ∈ right) :
    (wallet.ShowsUnspent left ∧ wallet.ShowsUnspent right ∧
      (∀ record, record ∈ (wallet.handleAll left).unspent ↔
        record ∈ (wallet.handleAll right).unspent) ∧
      (wallet.handleAll left).balance = (wallet.handleAll right).balance) ↔
      wallet.SettledBy left ∧ wallet.SettledBy right := by
  rw [← showsUnspent_iff, ← showsUnspent_iff]
  constructor
  · intro property
    exact ⟨property.1, property.2.1⟩
  · intro shows
    have updates (update : Update NoteRecord Nullifier) :
        update ∈ left.map wallet.updateOf ↔ update ∈ right.map wallet.updateOf := by
      simp [same]
    have perm := View.held_perm_of_shows updates (showsUnspent_iff_shows.mp shows.1)
      (showsUnspent_iff_shows.mp shows.2)
    rw [← view_handleAll, ← view_handleAll] at perm
    exact ⟨shows.1, shows.2, fun record => perm.mem_iff, sumValues_perm perm⟩

end Wallet

end Views

section Samples

open Reference

/-- The ciphertext of the paid note, delivered at its position. -/
def paidReceipt : Event := .receive ((deliveringTx paidNote).encOutputs.get 0) 1

/-- The nullifier under which the recipient spends the paid note. -/
def paidNullifier : Nullifier := paidNote.nullifier recipientKey.nk

theorem offered_paidReceipt : recipientWallet.offered paidReceipt = [⟨paidNote, 1⟩] := by
  have opened := (delivered_facts paidNote List.mem_cons_self).2.2
  have positive : paidNote.value > 0 := by decide
  simp only [paidReceipt, Wallet.offered, opened, positive, if_true]

/-- The nullifiers of another transaction. -/
def otherNullifiers : List Nullifier := [⟨Bytes.filled 32 0⟩]

theorem settledBy_other {events : List Event}
    (offers : events.flatMap recipientWallet.offered = [⟨paidNote, 1⟩])
    (since : ∀ record ∈ recipientWallet.receivedSince events, record = ⟨paidNote, 1⟩)
    (observed : ∀ nullifiers, .observe nullifiers ∈ events → nullifiers = otherNullifiers) :
    recipientWallet.SettledBy events := by
  constructor
  · intro record waits spent
    rw [since record waits] at spent
    cases spent with
    | inl seen => exact absurd seen (Finset.notMem_empty _)
    | inr found =>
        obtain ⟨nullifiers, member, inside⟩ := found
        rw [observed nullifiers member] at inside
        exact absurd inside (by decide +kernel)
  · intro record unspent
    rw [Wallet.received, offers]
    exact List.count_le_length

/-- The nullifiers of another transaction may come before or after the paid note. -/
theorem view_independent_sample :
    recipientWallet.ShowsUnspent [paidReceipt, .observe otherNullifiers] ∧
      recipientWallet.ShowsUnspent [.observe otherNullifiers, paidReceipt] ∧
      (∀ record,
        record ∈ (recipientWallet.handleAll [paidReceipt, .observe otherNullifiers]).unspent ↔
          record ∈ (recipientWallet.handleAll [.observe otherNullifiers, paidReceipt]).unspent) ∧
      (recipientWallet.handleAll [paidReceipt, .observe otherNullifiers]).balance =
        (recipientWallet.handleAll [.observe otherNullifiers, paidReceipt]).balance := by
  have first : recipientWallet.SettledBy [paidReceipt, .observe otherNullifiers] := by
    apply settledBy_other
    · simp [offered_paidReceipt]
    · intro record waits
      exact absurd waits List.not_mem_nil
    · intro nullifiers member
      simpa [paidReceipt] using member
  have second : recipientWallet.SettledBy [.observe otherNullifiers, paidReceipt] := by
    apply settledBy_other
    · simp [offered_paidReceipt]
    · intro record waits
      change record ∈ [] ++ recipientWallet.offered paidReceipt at waits
      simpa [offered_paidReceipt] using waits
    · intro nullifiers member
      simpa [paidReceipt] using member
  have same (event : Event) : event ∈ [paidReceipt, .observe otherNullifiers] ↔
      event ∈ [.observe otherNullifiers, paidReceipt] := by
    simp [or_comm]
  exact (Wallet.view_independent_iff recipientWallet _ _ same).mpr ⟨first, second⟩

/-- A wallet that observes the nullifier of a note before it receives the note keeps
the spent note. -/
theorem view_depends_on_order :
    ¬∀ (_ : Blake3) (_ : Ciphers) (wallet : Wallet) (left right : List Event),
      (∀ event, event ∈ left ↔ event ∈ right) →
      wallet.ShowsUnspent left ∧ wallet.ShowsUnspent right ∧
        (∀ record, record ∈ (wallet.handleAll left).unspent ↔
          record ∈ (wallet.handleAll right).unspent) ∧
        (wallet.handleAll left).balance = (wallet.handleAll right).balance := by
  intro claim
  have property := claim Reference.blake3 Reference.ciphers recipientWallet
    [paidReceipt, .observe [paidNullifier]] [.observe [paidNullifier], paidReceipt]
    fun event => by simp [or_comm]
  have settled := Wallet.showsUnspent_iff.mp property.2.1
  have waits : ⟨paidNote, 1⟩ ∈
      recipientWallet.receivedSince [.observe [paidNullifier], paidReceipt] := by
    change ⟨paidNote, 1⟩ ∈ [] ++ recipientWallet.offered paidReceipt
    simp [offered_paidReceipt]
  apply settled.observed _ waits
  right
  exact ⟨[paidNullifier], List.mem_cons_self, List.mem_singleton.mpr rfl⟩

end Samples

end ShieldedLedger
