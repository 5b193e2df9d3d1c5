import ShieldedLedger.ProverDev.Statement
import ShieldedLedger.Wallet

/-!
# What a built transfer contains

A transfer that is returned carries the nullifiers of its selected notes and of
its padding dummies in increasing order, a work solution and the development
proof of its own public inputs.  It is therefore valid under the development
verifier unless two of its nullifiers are equal.
-/

namespace ShieldedLedger

namespace Wallet

theorem mem_of_selectInputs {self : Wallet} {amount : UInt64} {selected : List NoteRecord}
    (chosen : self.selectInputs amount = .ok selected) {record : NoteRecord}
    (member : record ∈ selected) : record ∈ self.unspent := by
  unfold selectInputs at chosen
  dsimp only at chosen
  split at chosen
  · cases chosen
  · split at chosen
    · rename_i best found
      obtain rfl := Except.ok.inj chosen
      obtain rfl := List.mem_singleton.mp member
      exact List.mem_of_mem_filter (List.argmin_mem found)
    · split at chosen
      · cases chosen
      · obtain rfl := Except.ok.inj chosen
        exact (List.mem_insertionSort _).mp (List.mem_of_mem_take member)

end Wallet

section Building

variable [Blake3]

/-- Proving succeeds exactly on a satisfied statement, with the development proof of its
public inputs. -/
theorem prove_ok_iff {w : SpendWitness} {anchor : Anchor} {pi : SpendPublicInputs}
    {proof : List UInt8} :
    prove w anchor = .ok (pi, proof) ↔
      Satisfied (canonicalize w) pi ∧ pi = publicInputs (canonicalize w) anchor ∧
        proof = devProof pi := by
  unfold prove
  constructor
  · intro proven
    dsimp only at proven
    split at proven
    · cases proven
    · rename_i satisfied
      obtain ⟨rfl, rfl⟩ := Prod.mk.inj (Except.ok.inj proven)
      exact ⟨(checkSpendStatement_ok_iff ..).mp satisfied, rfl, rfl⟩
  · rintro ⟨satisfied, rfl, rfl⟩
    simp only [(checkSpendStatement_ok_iff ..).mpr satisfied]

/-- The published nullifiers are those of the inputs in increasing order. -/
theorem nullifiers_publicInputs_canonicalize (w : SpendWitness) (anchor : Anchor) :
    (publicInputs (canonicalize w) anchor).nullifiers =
      (w.inputs.map fun input => input.note.nullifier w.spenderNk).insertionSort
        fun left right => left.bytes ≤ right.bytes :=
  List.map_insertionSort _ _ _ w.inputs fun _ _ _ _ => Iff.rfl

/-! ## Transfers -/

namespace Wallet

/-- The nullifiers of selected notes and of the dummies beside them. -/
def inputNullifiers (self : Wallet) (selected : List NoteRecord) : List Nullifier :=
  (selected.map fun record => record.note.nullifier self.sk.nk) ++
    (List.range (txInputs - selected.length)).map fun dummyCtr =>
      (dummyInput dummyCtr).note.nullifier self.sk.nk

omit [Blake3] in
theorem map_note_inputWitnesses {witnessFor : ℕ → Option MerklePath} {selected : List NoteRecord} :
    ∀ {real : List InputWitness}, inputWitnesses witnessFor selected = .ok real →
      real.map InputWitness.note = selected.map NoteRecord.note := by
  induction selected with
  | nil =>
      intro real resolved
      obtain rfl := Except.ok.inj resolved
      rfl
  | cons record rest ih =>
      intro real resolved
      rw [inputWitnesses] at resolved
      split at resolved
      · cases resolved
      · rename_i path found
        cases later : inputWitnesses witnessFor rest with
        | error failure =>
            rw [later] at resolved
            cases resolved
        | ok inputs =>
            rw [later] at resolved
            obtain rfl := Except.ok.inj resolved
            simp [ih later]

/-- The nullifiers of the padded inputs. -/
theorem map_nullifier_padInputs (self : Wallet) {witnessFor : ℕ → Option MerklePath}
    {selected : List NoteRecord} {real : List InputWitness}
    (resolved : inputWitnesses witnessFor selected = .ok real) :
    (padInputs real).map (fun input => input.note.nullifier self.sk.nk) =
      self.inputNullifiers selected := by
  have notes := map_note_inputWitnesses resolved
  have lengths : real.length = selected.length := by
    simpa using congrArg List.length notes
  have nullifiers : real.map (fun input => input.note.nullifier self.sk.nk) =
      selected.map fun record => record.note.nullifier self.sk.nk := by
    have mapped := congrArg (List.map fun note => note.nullifier self.sk.nk) notes
    simpa only [List.map_map, Function.comp_def] using mapped
  simp [padInputs, inputNullifiers, nullifiers, lengths, Function.comp_def]

variable [Ciphers] {self : Wallet} {recipient : Address} {anchor : Anchor} {rngSeed : Bytes32}

/-- The witness that a wallet proves its transfers with. -/
def transferWitness (self : Wallet) (inputs : List InputWitness) (paid change : Note)
    (bindingDigest : Bytes32) : SpendWitness where
  spenderNk := self.sk.nk
  spenderAddrTag := self.sk.addrTag
  inputs := inputs
  outputs := [paid, change]
  mintValue := 0
  bindingDigest := bindingDigest

/-- What a finished transfer carries of its parts. -/
structure Finished (wallet : Wallet) (anchor : Anchor) (inputs : List InputWitness)
    (firstNf secondNf : Nullifier) (paid change : Note) (tx : TxV1) : Prop where
  proven : ∃ pi, prove (wallet.transferWitness inputs paid change tx.bindingDigest) anchor =
    .ok (pi, tx.proof)
  anchor : tx.anchor = anchor
  nullifiers : tx.nullifiers.toList = [firstNf, secondNf]
  commitments : tx.commitments.toList = [paid.commitment, change.commitment]
  antispam : ∃ solution, tx.antispam = .pow solution

omit [Ciphers] in
/-- Only two inputs are provable, so the two nullifiers carried are all of them. -/
theorem Finished.nullifiers_eq {inputs : List InputWitness} {firstNf secondNf : Nullifier}
    {paid change : Note} {tx : TxV1} {others : List Nullifier}
    (finished : self.Finished anchor inputs firstNf secondNf paid change tx)
    (sorted : ((inputs.map fun input => input.note.nullifier self.sk.nk).insertionSort
      fun left right => left.bytes ≤ right.bytes) = firstNf :: secondNf :: others) :
    tx.nullifiers.toList = (inputs.map fun input => input.note.nullifier self.sk.nk).insertionSort
      fun left right => left.bytes ≤ right.bytes := by
  obtain ⟨pi, proven⟩ := finished.proven
  have two : inputs.length = 2 :=
    (List.length_insertionSort ..).symm.trans (prove_ok_iff.mp proven).1.inputs_length
  have lengths := congrArg List.length sorted
  rw [List.length_insertionSort, List.length_map, two] at lengths
  have noOthers : others = [] := List.length_eq_zero_iff.mp (by simpa using lengths.symm)
  rw [finished.nullifiers, sorted, noOthers]

omit [Ciphers] in
/-- The proof is the development proof of the transaction's own public inputs. -/
theorem Finished.proof_eq {inputs : List InputWitness} {firstNf secondNf : Nullifier}
    {paid change : Note} {tx : TxV1}
    (finished : self.Finished anchor inputs firstNf secondNf paid change tx)
    (nullifiers : tx.nullifiers.toList =
      (inputs.map fun input => input.note.nullifier self.sk.nk).insertionSort
        fun left right => left.bytes ≤ right.bytes) :
    tx.proof = devProof tx.toPublicInputs := by
  obtain ⟨pi, proven⟩ := finished.proven
  obtain ⟨-, rfl, proof⟩ := prove_ok_iff.mp proven
  have published := nullifiers_publicInputs_canonicalize
    (self.transferWitness inputs paid change tx.bindingDigest) anchor
  rw [proof, TxV1.toPublicInputs, finished.anchor, nullifiers, finished.commitments]
  exact congrArg (fun nfs => devProof ⟨anchor, nfs, _, tx.bindingDigest, 0⟩) published

theorem finished_of_finishTransfer {inputs : List InputWitness} {firstNf secondNf : Nullifier}
    {outRecipient outChange : Note} {tx : TxV1}
    (returned : self.finishTransfer recipient anchor rngSeed inputs firstNf secondNf outRecipient
      outChange = .ok tx) :
    self.Finished anchor inputs firstNf secondNf outRecipient outChange tx := by
  unfold finishTransfer at returned
  dsimp only at returned
  split at returned
  · split at returned
    · cases returned
    · rename_i pi proof proven
      split at returned
      · cases returned
      · obtain rfl := Except.ok.inj returned
        -- The binding digest covers neither the proof nor the work solution.
        exact ⟨⟨pi, proven⟩, rfl, rfl, rfl, ⟨_, rfl⟩⟩
  · cases returned

/-- A returned transfer was finished from selected notes, padded to two inputs, and from an
exact payment and its change. -/
theorem finished_of_buildTransfer {amount : UInt64} {witnessFor : ℕ → Option MerklePath}
    {tx : TxV1}
    (returned : self.buildTransfer recipient amount anchor witnessFor rngSeed = .ok tx) :
    ∃ selected real firstNf secondNf others, self.selectInputs amount = .ok selected ∧
      inputWitnesses witnessFor selected = .ok real ∧
      ((padInputs real).map fun input => input.note.nullifier self.sk.nk).insertionSort
        (fun left right => left.bytes ≤ right.bytes) = firstNf :: secondNf :: others ∧
      self.Finished anchor (padInputs real) firstNf secondNf
        ⟨amount, recipient.addrTag, rhoTransfer firstNf 0, deriveRseed rngSeed 0⟩
        ⟨sumValues selected - amount, self.sk.addrTag, rhoTransfer firstNf 1,
          deriveRseed rngSeed 1⟩ tx := by
  unfold buildTransfer at returned
  split at returned
  · cases returned
  · rename_i selected chosen
    dsimp only at returned
    split at returned
    · cases returned
    · rename_i real resolved
      split at returned
      · rename_i firstNf secondNf others sorted
        exact ⟨selected, real, firstNf, secondNf, others, chosen, resolved, sorted,
          finished_of_finishTransfer returned⟩
      · cases returned

/-- What a returned transfer of selected notes carries. -/
structure Built (wallet : Wallet) (selected : List NoteRecord) (anchor : Anchor) (tx : TxV1) :
    Prop where
  anchor : tx.anchor = anchor
  nullifiers : tx.nullifiers.toList = (wallet.inputNullifiers selected).insertionSort
    fun left right => left.bytes ≤ right.bytes
  proof : tx.proof = devProof tx.toPublicInputs
  antispam : ∃ solution, tx.antispam = .pow solution

theorem built_of_buildTransfer {amount : UInt64} {witnessFor : ℕ → Option MerklePath} {tx : TxV1}
    (returned : self.buildTransfer recipient amount anchor witnessFor rngSeed = .ok tx) :
    ∃ selected, self.selectInputs amount = .ok selected ∧ self.Built selected anchor tx := by
  obtain ⟨selected, real, firstNf, secondNf, others, chosen, resolved, sorted, finished⟩ :=
    finished_of_buildTransfer returned
  have nullifiers := finished.nullifiers_eq sorted
  refine ⟨selected, chosen, finished.anchor, ?_, finished.proof_eq nullifiers, finished.antispam⟩
  rw [nullifiers, self.map_nullifier_padInputs resolved]

omit [Ciphers] in
/-- A built transfer is valid exactly when its input nullifiers are distinct. -/
theorem Built.valid_iff {selected : List NoteRecord} {tx : TxV1}
    (built : self.Built selected anchor tx) :
    validateStateless tx devVerifier 0 = .ok () ↔ (self.inputNullifiers selected).Nodup := by
  obtain ⟨solution, pow⟩ := built.antispam
  have sorted := List.pairwise_insertionSort
    (fun left right : Nullifier => left.bytes ≤ right.bytes) (self.inputNullifiers selected)
  rw [← built.nullifiers, tx.nullifiers_toList, List.pairwise_pair] at sorted
  have distinct : (self.inputNullifiers selected).Nodup ↔
      tx.nullifiers.get 0 ≠ tx.nullifiers.get 1 := by
    rw [← (List.perm_insertionSort (fun left right : Nullifier => left.bytes ≤ right.bytes)
      _).nodup_iff, ← built.nullifiers, tx.nullifiers_toList]
    simp
  have size : tx.proof.length = proofBucket := by
    rw [built.proof, length_devProof]
  have lane : checkAntiSpam tx 0 = .ok () := by
    simp [checkAntiSpam, pow]
  have verified : devVerifier.verify tx.toPublicInputs tx.proof = .ok () := by
    rw [built.proof, verify_devProof]
  rw [validateStateless_ok_iff, distinct]
  constructor
  · rintro ⟨-, below, -⟩ equal
    rw [equal] at below
    exact lt_irrefl _ below
  · intro different
    exact ⟨size, lt_of_le_of_ne sorted fun equal => different (congrArg Nullifier.mk equal), lane,
      verified⟩

end Wallet

end Building

end ShieldedLedger
