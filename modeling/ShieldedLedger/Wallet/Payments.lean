import ShieldedLedger.Wallet.Transfers

/-!
# What a built transfer pays

The wallet, the prover, the binding digest and the verifier each put the two
nullifiers in increasing order.  A transfer that is returned carries the
commitments of the payment and of the change, whose amounts balance exactly
because the prover checked them.
-/

namespace ShieldedLedger

theorem valueSum_perm {left right : List Note} (perm : left.Perm right) :
    valueSum left = valueSum right :=
  (perm.map _).sum_eq

@[simp] theorem valueSum_append (left right : List Note) :
    valueSum (left ++ right) = valueSum left + valueSum right := by
  simp [valueSum]

section Payments

variable [Blake3]

/-- Proving has checked the exact balance of the notes. -/
theorem balance_of_prove {w : SpendWitness} {anchor : Anchor} {pi : SpendPublicInputs}
    {proof : List UInt8} (proven : prove w anchor = .ok (pi, proof)) :
    valueSum (w.inputs.map InputWitness.note) + w.mintValue.toNat = valueSum w.outputs := by
  have balance := (prove_ok_iff.mp proven).1.balance
  have perm : ((canonicalize w).inputs.map InputWitness.note).Perm
      (w.inputs.map InputWitness.note) := (List.perm_insertionSort _ _).map _
  rw [valueSum_perm perm] at balance
  exact balance

namespace Wallet

/-- Padding adds no value. -/
theorem valueSum_padInputs {witnessFor : ℕ → Option MerklePath} {selected : List NoteRecord}
    {real : List InputWitness} (resolved : inputWitnesses witnessFor selected = .ok real) :
    valueSum ((padInputs real).map InputWitness.note) =
      valueSum (selected.map NoteRecord.note) := by
  have dummies : valueSum (((List.range (txInputs - real.length)).map dummyInput).map
      InputWitness.note) = 0 := by
    rw [valueSum, List.map_map, List.map_map]
    apply List.sum_eq_zero
    intro value member
    obtain ⟨dummyCtr, _, rfl⟩ := List.mem_map.mp member
    rfl
  rw [padInputs, List.map_append, valueSum_append, dummies, map_note_inputWitnesses resolved,
    Nat.add_zero]

variable {self : Wallet} {recipient : Address} {anchor : Anchor} {rngSeed : Bytes32}

/-- The outputs of a finished transfer balance with its inputs. -/
theorem Finished.balance {inputs : List InputWitness} {firstNf secondNf : Nullifier}
    {paid change : Note} {tx : TxV1}
    (finished : self.Finished anchor inputs firstNf secondNf paid change tx) :
    valueSum (inputs.map InputWitness.note) = paid.value.toNat + change.value.toNat := by
  obtain ⟨pi, proven⟩ := finished.proven
  simpa [valueSum, transferWitness] using balance_of_prove proven

variable [Ciphers]

/-- The outputs of a transfer of `amount` out of the selected notes. -/
structure Pays (wallet : Wallet) (recipient : Address) (amount : UInt64)
    (selected : List NoteRecord) (tx : TxV1) (paid change : Note) : Prop where
  commitments : tx.commitments.toList = [paid.commitment, change.commitment]
  paid_value : paid.value = amount
  paid_addrTag : paid.addrTag = recipient.addrTag
  paid_rho : paid.rho = rhoTransfer (tx.nullifiers.get 0) 0
  change_value : change.value.toNat + amount.toNat = valueSum (selected.map NoteRecord.note)
  change_addrTag : change.addrTag = wallet.sk.addrTag
  change_rho : change.rho = rhoTransfer (tx.nullifiers.get 0) 1

theorem pays_of_buildTransfer {amount : UInt64} {witnessFor : ℕ → Option MerklePath}
    {tx : TxV1} {selected : List NoteRecord} (chosen : self.selectInputs amount = .ok selected)
    (returned : self.buildTransfer recipient amount anchor witnessFor rngSeed = .ok tx) :
    ∃ paid change, self.Pays recipient amount selected tx paid change := by
  obtain ⟨selected', real, firstNf, secondNf, others, chosen', resolved, -, finished⟩ :=
    finished_of_buildTransfer returned
  obtain rfl := Except.ok.inj (chosen.symm.trans chosen')
  have first : tx.nullifiers.get 0 = firstNf := by
    have listed := finished.nullifiers
    rw [tx.nullifiers_toList] at listed
    exact (List.cons.inj listed).1
  have balance := finished.balance
  rw [valueSum_padInputs resolved] at balance
  refine ⟨_, _, finished.commitments, rfl, rfl, ?_, ?_, rfl, ?_⟩
  · rw [first]
  · rw [balance, Nat.add_comm]
  · rw [first]

/-- A returned transfer is one the node accepts statelessly.  When its input nullifiers are
distinct it passes validation; its commitments are those of the payment and of the exact
change, and both nonces derive from the smaller of the two published nullifiers. -/
theorem buildTransfer_valid {amount : UInt64} {witnessFor : ℕ → Option MerklePath} {tx : TxV1}
    {selected : List NoteRecord} (chosen : self.selectInputs amount = .ok selected)
    (returned : self.buildTransfer recipient amount anchor witnessFor rngSeed = .ok tx)
    (distinct : (self.inputNullifiers selected).Nodup) :
    validateStateless tx devVerifier 0 = .ok () ∧
      tx.nullifiers.get 0 < tx.nullifiers.get 1 ∧
      ∃ paid change, self.Pays recipient amount selected tx paid change := by
  obtain ⟨selected', chosen', built⟩ := built_of_buildTransfer returned
  obtain rfl := Except.ok.inj (chosen.symm.trans chosen')
  have valid := built.valid_iff.mpr distinct
  have ordered := ((validateStateless_ok_iff ..).mp valid).2.1
  exact ⟨valid, ordered, pays_of_buildTransfer chosen returned⟩

end Wallet

end Payments

section Samples

open Reference

/-- The first payment of the sample wallet is one unit out of its single note. -/
theorem buildTransfer_valid_sample :
    validateStateless firstPayment.tx devVerifier 0 = .ok () ∧
      ∃ paid change, sampleWallet.Pays recipientKey.address 1 [⟨sampleNote, 0⟩] firstPayment.tx
        paid change := by
  have chosen : sampleWallet.selectInputs 1 = .ok [⟨sampleNote, 0⟩] := by decide +kernel
  have distinct : (sampleWallet.inputNullifiers [⟨sampleNote, 0⟩]).Nodup := by decide +kernel
  have valid := Wallet.buildTransfer_valid chosen honest_firstPayment.built distinct
  exact ⟨valid.1, valid.2.2⟩

end Samples

end ShieldedLedger
