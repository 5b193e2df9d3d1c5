import ShieldedLedger.Wallet.Selection
import ShieldedLedger.Wallet.View

/-!
# Sums of a wallet

A wallet adds the values it holds without a check, and it records whatever value a
sender encrypted to it.  Its sums are exact as long as every value it receives fits on
top of what it holds at that time, and wrong as soon as one does not.
-/

namespace ShieldedLedger

/-- The sums behind the balance and the selection are computed without overflow. -/
structure ExactSums (wallet : Wallet) : Prop where
  balance : Checked.sum 0 (wallet.unspent.map fun record => record.note.value) =
    some wallet.balance
  balance_eq : wallet.balance.toNat = recordSum wallet.unspent
  pair : Checked.sum 0 ((wallet.largestFirst.take txInputs).map fun record => record.note.value) =
    some (sumValues (wallet.largestFirst.take txInputs))
  pair_eq : (sumValues (wallet.largestFirst.take txInputs)).toNat =
    recordSum (wallet.largestFirst.take txInputs)

@[simp] theorem recordSum_nil : recordSum [] = 0 := rfl

theorem recordSum_append (left right : List NoteRecord) :
    recordSum (left ++ right) = recordSum left + recordSum right := by
  simp [recordSum_eq]

/-- A sum that fits is the checked sum. -/
theorem checked_sumValues {records : List NoteRecord} (fits : recordSum records < 2 ^ 64) :
    Checked.sum 0 (records.map fun record => record.note.value) = some (sumValues records) := by
  rw [recordSum_eq] at fits
  exact Checked.total_of_lt (fun record => record.note.value) records fits

/-- The sums are exact exactly when the held values fit. -/
theorem exactSums_iff (wallet : Wallet) :
    ExactSums wallet ↔ recordSum wallet.unspent < 2 ^ 64 := by
  constructor
  · intro exact
    rw [← exact.balance_eq]
    exact wallet.balance.toNat_lt
  · intro fits
    have pairFits : recordSum (wallet.largestFirst.take txInputs) < 2 ^ 64 :=
      (Wallet.recordSum_le_of_subperm (Wallet.subperm_take_largestFirst txInputs)).trans_lt fits
    exact ⟨checked_sumValues fits, toNat_sumValues fits, checked_sumValues pairFits,
      toNat_sumValues pairFits⟩

section Runs

variable [Blake3] [Ciphers]

namespace Wallet

/-- What an event offers is worth the value that was decrypted. -/
theorem recordSum_offered (self : Wallet) (enc : EncryptedOutput) (position : ℕ) :
    recordSum (self.offered (.receive enc position)) =
      match tryDecrypt enc self.sk.incomingViewingKey with
      | some note => note.value.toNat
      | none => 0 := by
  rw [offered]
  cases tryDecrypt enc self.sk.incomingViewingKey with
  | none => rfl
  | some note =>
      by_cases positive : note.value > 0
      · simp only [if_pos positive, recordSum_singleton]
      · have zero : note.value.toNat = 0 := by
          rw [gt_iff_lt, UInt64.lt_iff_toNat_lt, UInt64.toNat_zero] at positive
          exact Nat.eq_zero_of_not_pos positive
        simp only [if_neg positive, recordSum_nil, zero]

/-- A receipt adds the value that was decrypted. -/
theorem recordSum_receive (self : Wallet) (enc : EncryptedOutput) (position : ℕ) :
    recordSum (self.handle (.receive enc position)).unspent = recordSum self.unspent +
      match tryDecrypt enc self.sk.incomingViewingKey with
      | some note => note.value.toNat
      | none => 0 := by
  rw [handle, tryReceive_fst, recordSum_append, recordSum_offered]

/-- An observation drops records. -/
theorem recordSum_observe (self : Wallet) (nullifiers : List Nullifier) :
    recordSum (self.handle (.observe nullifiers)).unspent ≤ recordSum self.unspent := by
  rw [recordSum_eq, recordSum_eq]
  exact Largest.sum_le_of_subperm List.filter_sublist.subperm

theorem handleAll_concat (self : Wallet) (past : List Event) (event : Event) :
    self.handleAll (past ++ [event]) = (self.handleAll past).handle event := by
  rw [handleAll, List.foldl_append]
  rfl

@[simp] theorem sk_handleAll (self : Wallet) (events : List Event) :
    (self.handleAll events).sk = self.sk := by
  induction events using List.reverseRecOn with
  | nil => rfl
  | append_singleton past event ih => rw [handleAll_concat, sk_handle, ih]

end Wallet

/-- The sums of a wallet are exact in every state of a run exactly when each decrypted
value fits on top of the held total at its receipt. -/
theorem exact_sums_iff (seed : Bytes32) (events : List Event) :
    (∀ past, past <+: events → ExactSums ((Wallet.fromSeed seed).handleAll past)) ↔
      ∀ past enc position, past ++ [.receive enc position] <+: events →
        ∀ note, tryDecrypt enc (SpendingKey.fromSeed seed).incomingViewingKey = some note →
          recordSum ((Wallet.fromSeed seed).handleAll past).unspent + note.value.toNat <
            2 ^ 64 := by
  have key (past : List Event) :
      ((Wallet.fromSeed seed).handleAll past).sk = SpendingKey.fromSeed seed := by
    rw [Wallet.sk_handleAll]
    rfl
  simp only [exactSums_iff]
  constructor
  · intro exact past enc position reached note opened
    have after := exact _ reached
    rw [Wallet.handleAll_concat, Wallet.recordSum_receive, key, opened] at after
    exact after
  · intro room past
    induction past using List.reverseRecOn with
    | nil =>
        intro _
        exact Nat.two_pow_pos 64
    | append_singleton past event ih =>
        intro reached
        have before := ih ((List.prefix_append ..).trans reached)
        rw [Wallet.handleAll_concat]
        cases event with
        | receive enc position =>
            rw [Wallet.recordSum_receive, key]
            cases opened : tryDecrypt enc (SpendingKey.fromSeed seed).incomingViewingKey with
            | none => exact before
            | some note => exact room past enc position reached note opened
        | observe nullifiers => exact (Wallet.recordSum_observe _ _).trans_lt before

end Runs

section Samples

open Reference

/-- A note of the largest value there is. -/
def fullNote : Note :=
  ⟨0xFFFFFFFFFFFFFFFF, recipientKey.addrTag, Bytes.filled 32 3, Bytes.filled 32 4⟩

/-- Its ciphertext for the recipient. -/
def fullOutput : EncryptedOutput :=
  (encryptNote fullNote recipientKey.address (Bytes.filled memoLen 0)
    (Bytes.filled 32 5)).getD ⟨[]⟩

/-- Two ciphertexts of the largest value wrap the balance. -/
theorem balance_wraps :
    ¬∀ (_ : Blake3) (_ : Ciphers) (seed : Bytes32) (events : List Event),
      ((Wallet.fromSeed seed).handleAll events).balance.toNat =
        recordSum ((Wallet.fromSeed seed).handleAll events).unspent := by
  intro claim
  have opened : tryDecrypt fullOutput recipientKey.incomingViewingKey = some fullNote := by
    decide +kernel
  have exact := claim Reference.blake3 Reference.ciphers (Bytes.filled 32 2)
    [.receive fullOutput 0, .receive fullOutput 1]
  set start := Wallet.fromSeed (Bytes.filled 32 2) with startEq
  have key : start.sk = recipientKey := rfl
  have held (self : Wallet) (own : self.sk = recipientKey) (position : ℕ) :
      (self.handle (.receive fullOutput position)).unspent =
        self.unspent ++ [⟨fullNote, position⟩] := by
    rw [Wallet.handle, Wallet.tryReceive_fst, Wallet.offered, own, opened]
    rfl
  have both : (start.handleAll [.receive fullOutput 0, .receive fullOutput 1]).unspent =
      [⟨fullNote, 0⟩, ⟨fullNote, 1⟩] := by
    have first := held start key 0
    have second := held (start.handle (.receive fullOutput 0))
      ((start.sk_handle (.receive fullOutput 0)).trans key) 1
    have empty : start.unspent = [] := rfl
    rw [Wallet.handleAll, List.foldl_cons, List.foldl_cons, List.foldl_nil, second, first, empty,
      List.nil_append, List.singleton_append]
  rw [Wallet.balance, both] at exact
  exact absurd exact (by decide)

end Samples

end ShieldedLedger
