import ShieldedLedger.Encryption.RoundTrip
import ShieldedLedger.Tree.Growth
import ShieldedLedger.Wallet.Payments
import ShieldedLedger.Wallet.Selection

/-!
# A wallet in step can pay

The witnesses of the node verify the notes of a wallet that is in step with the ledger, and
the outputs it makes satisfy every constraint of the spend statement.  Nothing but a lack of
funds keeps such a wallet from building a transfer.
-/

namespace ShieldedLedger

section Completeness

variable [Blake3]

/-- An input is that of a held note with a path to the root. -/
structure Proves (wallet : Wallet) (root : Bytes32) (input : InputWitness) : Prop where
  real : input.isDummy = false
  path : verifyPath input.note.commitment input.path root = true
  owned : input.note.addrTag = wallet.sk.addrTag
  held : ∃ record ∈ wallet.unspent, record.note = input.note

namespace Wallet

/-- The ledger resolves every note of a wallet in step. -/
theorem exists_inputWitnesses {self : Wallet} {ledger : Ledger} (synced : Synced self ledger)
    (room : ledger.tree.len ≤ 2 ^ treeDepth) {selected : List NoteRecord}
    (held : ∀ record ∈ selected, record ∈ self.unspent) :
    ∃ real, inputWitnesses ledger.treeWitness selected = .ok real ∧
      ∀ input ∈ real, Proves self ledger.tree.root input := by
  induction selected with
  | nil => exact ⟨[], rfl, nofun⟩
  | cons record rest ih =>
      obtain ⟨real, resolved, proves⟩ := ih fun other member =>
        held other (List.mem_cons_of_mem _ member)
      have member := held record (List.mem_cons_self ..)
      have leaf := synced.backed record member
      have block : record.position / 2 ^ treeDepth = 0 :=
        Nat.div_eq_of_lt ((List.getElem?_eq_some_iff.mp leaf).1.trans_le room)
      obtain ⟨path, given, verified⟩ :=
        (ledger.tree.witness_verifies_iff leaf ledger.tree.root).mpr
          (by rw [block, CommitmentTree.blockRoot_zero])
      refine ⟨⟨record.note, path, false⟩ :: real, ?_, ?_⟩
      · rw [inputWitnesses, show ledger.treeWitness record.position = some path from given]
        simp only [resolved]
        rfl
      · intro input inputMem
        rcases List.mem_cons.mp inputMem with rfl | later
        · exact ⟨rfl, verified, synced.owned record member, record, member, rfl⟩
        · exact proves input later

/-- A dummy of the wallet. -/
theorem dummyInput_of_mem_padInputs {real : List InputWitness} {input : InputWitness}
    (member : input ∈ padInputs real) : input ∈ real ∨ ∃ dummyCtr, input = dummyInput dummyCtr := by
  rcases List.mem_append.mp member with held | padding
  · exact .inl held
  · obtain ⟨dummyCtr, -, rfl⟩ := List.mem_map.mp padding
    exact .inr ⟨dummyCtr, rfl⟩

theorem length_padInputs {real : List InputWitness} (few : real.length ≤ txInputs) :
    (padInputs real).length = txInputs := by
  rw [padInputs, List.length_append, List.length_map, List.length_range]
  omega

omit [Blake3] in
theorem value_le_recordSum {self : Wallet} {record : NoteRecord}
    (held : record ∈ self.unspent) : record.note.value.toNat ≤ recordSum self.unspent := by
  have least := recordSum_le_of_subperm (List.singleton_subperm_iff.mpr held)
  rwa [recordSum_singleton] at least

/-- Held notes and dummies, paid out in full to a payment and the change, satisfy the whole
spend statement. -/
theorem satisfied_transferWitness {self : Wallet} {anchor : Anchor} {real : List InputWitness}
    (few : real.length ≤ txInputs) (proves : ∀ input ∈ real, Proves self anchor.root input)
    (bounded : recordSum self.unspent < maxMoney.toNat) {firstNf secondNf : Nullifier}
    {others : List Nullifier}
    (sorted : ((padInputs real).map fun input => input.note.nullifier self.sk.nk).insertionSort
      (fun left right => left.bytes ≤ right.bytes) = firstNf :: secondNf :: others)
    {paid change : Note} (paidRho : paid.rho = rhoTransfer firstNf 0)
    (changeRho : change.rho = rhoTransfer firstNf 1)
    (balance : valueSum ((padInputs real).map InputWitness.note) =
      paid.value.toNat + change.value.toNat)
    (covered : valueSum ((padInputs real).map InputWitness.note) ≤ recordSum self.unspent)
    (bindingDigest : Bytes32) :
    let w := canonicalize (self.transferWitness (padInputs real) paid change bindingDigest)
    Satisfied w (publicInputs w anchor) := by
  intro w
  have published : (publicInputs w anchor).nullifiers = firstNf :: secondNf :: others :=
    (nullifiers_publicInputs_canonicalize _ anchor).trans sorted
  have same : w.inputs.Perm (padInputs real) := List.perm_insertionSort ..
  have two : w.inputs.length = txInputs := same.length_eq.trans (length_padInputs few)
  have inRange (value : UInt64) (below : value.toNat ≤ recordSum self.unspent) :
      value < maxMoney := UInt64.lt_iff_toNat_lt.mpr (below.trans_lt bounded)
  have outputs : w.outputs = [paid, change] := rfl
  exact {
    inputs_length := two
    outputs_length := rfl
    nullifiers_length := by rw [publicInputs, List.length_map, two]
    commitments_length := rfl
    bindingDigest_eq := rfl
    mint_lt := (by decide : (0 : UInt64) < maxMoney)
    balance := by
      rw [valueSum_perm (same.map InputWitness.note), balance, outputs]
      simp [valueSum, w, canonicalize, transferWitness]
    input := fun i input found => by
      have nullifier : (publicInputs w anchor).nullifiers[i]? =
          some (input.note.nullifier w.spenderNk) := by
        rw [publicInputs, List.getElem?_map, found]
        rfl
      have member := same.mem_iff.mp (List.mem_of_getElem? found)
      rcases dummyInput_of_mem_padInputs member with held | ⟨dummyCtr, rfl⟩
      · obtain ⟨real, path, owned, record, recordMem, note⟩ := proves input held
        exact ⟨fun dummy => absurd (real.symm.trans dummy) Bool.false_ne_true,
          inRange _ (note ▸ value_le_recordSum recordMem), fun _ => path, fun _ => owned, nullifier⟩
      · exact ⟨fun _ => rfl, (by decide : (0 : UInt64) < maxMoney), nofun, nofun, nullifier⟩
    output := fun i out found => by
      rw [outputs] at found
      have payable (note : Note) (listed : note ∈ [paid, change]) :
          note.value.toNat ≤ recordSum self.unspent := by
        rcases List.mem_pair.mp listed with rfl | rfl <;> omega
      have below := inRange _ (payable out (List.mem_of_getElem? found))
      have committed : (publicInputs w anchor).commitments[i]? = some out.commitment := by
        rw [publicInputs, outputs, List.getElem?_map, found]
        rfl
      refine ⟨below, committed, fun _ => ?_⟩
      rw [published, List.headD_cons]
      match i, found with
      | 0, found =>
          obtain rfl := Option.some.inj found
          exact paidRho
      | 1, found =>
          obtain rfl := Option.some.inj found
          exact changeRho }

variable [Ciphers]

/-- Encrypting fails only for a recipient whose key does not parse. -/
theorem encryptNote_isSome_iff (note : Note) (recipient : Address) (memo : Bytes.Array memoLen)
    (ephemeralSeed : Bytes32) :
    (encryptNote note recipient memo ephemeralSeed).isSome = true ↔
      (Ciphers.kemNew recipient.kemPk).isSome = true := by
  rw [encryptNote, Address.kemEncapsulate]
  cases Ciphers.kemNew recipient.kemPk <;> simp

/-- With a satisfied statement, finishing returns a transaction or panics on the key of the
recipient. -/
theorem finishTransfer_of_satisfied (agree : Ciphers.Agree) {self : Wallet}
    {recipient : Address} {anchor : Anchor} {rngSeed : Bytes32} {inputs : List InputWitness}
    {firstNf secondNf : Nullifier} {paid change : Note}
    (satisfied : ∀ bindingDigest,
      let w := canonicalize (self.transferWitness inputs paid change bindingDigest)
      Satisfied w (publicInputs w anchor)) :
    let outcome := self.finishTransfer recipient anchor rngSeed inputs firstNf secondNf paid change
    ((Ciphers.kemNew recipient.kemPk).isSome = true → ∃ tx, outcome = .ok tx) ∧
      ((Ciphers.kemNew recipient.kemPk).isSome = false → outcome = .error .panicked) := by
  intro outcome
  have own : (Ciphers.kemNew self.address.kemPk).isSome = true :=
    Option.isSome_of_eq_some (agree.kemNew_kemToBytes _)
  constructor
  · intro payable
    obtain ⟨enc0, sealed0⟩ := Option.isSome_iff_exists.mp
      ((encryptNote_isSome_iff paid recipient (Bytes.filled memoLen 0)
        (deriveRseed rngSeed 10)).mpr payable)
    obtain ⟨enc1, sealed1⟩ := Option.isSome_iff_exists.mp
      ((encryptNote_isSome_iff change self.address (Bytes.filled memoLen 0)
        (deriveRseed rngSeed 11)).mpr own)
    have proven (bindingDigest : Bytes32) :
        ∃ result, prove (self.transferWitness inputs paid change bindingDigest) anchor =
          .ok result :=
      ⟨(_, _), prove_ok_iff.mpr ⟨satisfied bindingDigest, rfl, rfl⟩⟩
    simp only [outcome, finishTransfer, sealed0, sealed1, solve_zero]
    split
    · rename_i failed
      obtain ⟨result, done⟩ := proven _
      exact absurd (failed.symm.trans done) (by simp)
    · exact ⟨_, rfl⟩
  · intro unparsed
    have closed : encryptNote paid recipient (Bytes.filled memoLen 0) (deriveRseed rngSeed 10) =
        none := by
      rw [← Option.not_isSome_iff_eq_none, encryptNote_isSome_iff, unparsed]
      exact Bool.false_ne_true
    simp only [outcome, finishTransfer, closed]

section Outcome

variable {self : Wallet} {ledger : Ledger} (recipient : Address) {amount : UInt64}
  (rngSeed : Bytes32)

/-- With covered funds the transfer is built, unless the key of the recipient does not
parse. -/
theorem buildTransfer_of_selects (agree : Ciphers.Agree) (synced : Synced self ledger)
    (room : ledger.tree.len ≤ 2 ^ treeDepth) (bounded : recordSum self.unspent < maxMoney.toNat)
    {selected : List NoteRecord} (chosen : self.selectInputs amount = .ok selected)
    (selects : self.Selects amount selected) :
    let outcome := self.buildTransfer recipient amount ledger.currentAnchor ledger.treeWitness
      rngSeed
    ((Ciphers.kemNew recipient.kemPk).isSome = true → ∃ tx, outcome = .ok tx) ∧
      ((Ciphers.kemNew recipient.kemPk).isSome = false → outcome = .error .panicked) := by
  intro outcome
  have within := recordSum_le_of_subperm selects.distinct
  have fits : recordSum selected < 2 ^ 64 :=
    (within.trans_lt bounded).trans maxMoney.toNat_lt
  obtain ⟨real, resolved, proves⟩ := exists_inputWitnesses synced room
    (fun record member => selects.distinct.subset member)
  have notes := map_note_inputWitnesses resolved
  have few : real.length ≤ txInputs := by
    have lengths := congrArg List.length notes
    rw [List.length_map, List.length_map] at lengths
    exact lengths.trans_le selects.few
  obtain ⟨firstNf, secondNf, sorted⟩ : ∃ firstNf secondNf,
      ((padInputs real).map fun input => input.note.nullifier self.sk.nk).insertionSort
        (fun left right => left.bytes ≤ right.bytes) = [firstNf, secondNf] := by
    apply List.length_eq_two.mp
    rw [List.length_insertionSort, List.length_map, length_padInputs few]
  have value : valueSum ((padInputs real).map InputWitness.note) = recordSum selected :=
    valueSum_padInputs resolved
  let paid : Note := ⟨amount, recipient.addrTag, rhoTransfer firstNf 0, deriveRseed rngSeed 0⟩
  let change : Note :=
    ⟨sumValues selected - amount, self.sk.addrTag, rhoTransfer firstNf 1, deriveRseed rngSeed 1⟩
  have remainder : change.value.toNat = recordSum selected - amount.toNat := by
    have covers : amount ≤ sumValues selected := by
      rw [UInt64.le_iff_toNat_le, toNat_sumValues fits]
      exact selects.covers
    rw [UInt64.toNat_sub_of_le _ _ covers, toNat_sumValues fits]
  have satisfied (bindingDigest : Bytes32) :
      let w := canonicalize (self.transferWitness (padInputs real) paid change bindingDigest)
      Satisfied w (publicInputs w ledger.currentAnchor) :=
    satisfied_transferWitness few proves bounded sorted rfl rfl
      (by rw [value, remainder, Nat.add_sub_cancel' selects.covers]) (value.trans_le within)
      bindingDigest
  have built : outcome = self.finishTransfer recipient ledger.currentAnchor rngSeed
      (padInputs real) firstNf secondNf paid change := by
    simp only [outcome, buildTransfer, chosen, resolved, sorted, paid, change]
  rw [built]
  exact finishTransfer_of_satisfied agree satisfied

end Outcome

end Wallet

end Completeness

section Samples

open Reference

end Samples

end ShieldedLedger
