import ShieldedLedger.ProverDev
import ShieldedLedger.Reference

/-!
# What the spend statement enforces

A successful check is equivalent to a record of constraints, one field for each.
Two ties are missing from that record.  The balance is checked against the mint
amount of the witness, not the public one, and the nullifier key of the witness
is not tied to the key that owns the inputs.  Both theorems say exactly when the
intended law holds nevertheless.
-/

namespace ShieldedLedger

section Constraints

variable [Blake3]

/-- The constraints on the input at one position. -/
structure InputSatisfied (w : SpendWitness) (pi : SpendPublicInputs) (i : ℕ)
    (input : InputWitness) : Prop where
  dummy_value : input.isDummy = true → input.note.value = 0
  value_lt : input.note.value < maxMoney
  member : input.isDummy = false → verifyPath input.note.commitment input.path pi.anchor.root = true
  owned : input.isDummy = false → input.note.addrTag = w.spenderAddrTag
  nullifier : pi.nullifiers[i]? = some (input.note.nullifier w.spenderNk)

/-- The constraints on the output at one position. -/
structure OutputSatisfied (w : SpendWitness) (pi : SpendPublicInputs) (i : ℕ) (out : Note) :
    Prop where
  value_lt : out.value < maxMoney
  commitment : pi.commitments[i]? = some out.commitment
  rho : w.mintValue = 0 → out.rho =
    rhoTransfer (pi.nullifiers.headD ⟨Bytes.filled 32 0⟩) (UInt8.ofNat i)

/-- Exact sum of note values. -/
def valueSum (notes : List Note) : ℕ := (notes.map fun note => note.value.toNat).sum

/-- All constraints of the spend statement. -/
structure Satisfied (w : SpendWitness) (pi : SpendPublicInputs) : Prop where
  inputs_length : w.inputs.length = txInputs
  outputs_length : w.outputs.length = txOutputs
  nullifiers_length : pi.nullifiers.length = txInputs
  commitments_length : pi.commitments.length = txOutputs
  bindingDigest_eq : pi.bindingDigest = w.bindingDigest
  input : ∀ i input, w.inputs[i]? = some input → InputSatisfied w pi i input
  output : ∀ i out, w.outputs[i]? = some out → OutputSatisfied w pi i out
  mint_lt : w.mintValue < maxMoney
  balance : valueSum (w.inputs.map InputWitness.note) + w.mintValue.toNat = valueSum w.outputs

theorem checkInput_ok_iff (w : SpendWitness) (pi : SpendPublicInputs) (i : ℕ)
    (input : InputWitness) :
    checkInput w pi i input = .ok () ↔ InputSatisfied w pi i input := by
  unfold checkInput
  constructor
  · intro ok
    split at ok
    · cases ok
    rename_i dummy
    split at ok
    · cases ok
    rename_i range
    split at ok
    · cases ok
    rename_i path
    split at ok
    · cases ok
    rename_i owner
    split at ok
    · cases ok
    rename_i derived
    refine ⟨fun isDummy => ?_, UInt64.not_le.mp range, fun real => ?_, fun real => ?_,
      (not_not.mp derived).symm⟩
    · simpa [isDummy] using dummy
    · simpa [real] using path
    · simpa [real] using owner
  · intro sat
    have nullifierEq := sat.nullifier.symm
    have range : ¬input.note.value ≥ maxMoney := UInt64.not_le.mpr sat.value_lt
    cases real : input.isDummy with
    | true =>
        have positive : ¬maxMoney = 0 := by decide
        simp [sat.dummy_value real, positive, nullifierEq]
    | false => simp [range, sat.member real, sat.owned real, nullifierEq]

theorem checkOutput_ok_iff (w : SpendWitness) (pi : SpendPublicInputs) (i : ℕ) (out : Note) :
    checkOutput w pi (pi.nullifiers.headD ⟨Bytes.filled 32 0⟩) i out = .ok () ↔
      OutputSatisfied w pi i out := by
  unfold checkOutput
  constructor
  · intro ok
    split at ok
    · cases ok
    rename_i range
    split at ok
    · cases ok
    rename_i committed
    split at ok
    · cases ok
    rename_i derived
    refine ⟨UInt64.not_le.mp range, (not_not.mp committed).symm, fun zero => ?_⟩
    exact not_not.mp fun different => derived ⟨zero, different⟩
  · intro sat
    rw [if_neg (UInt64.not_le.mpr sat.value_lt), if_neg (not_not.mpr sat.commitment.symm),
      if_neg fun wrong => wrong.2 (sat.rho wrong.1)]

theorem checkInputs_ok_iff (w : SpendWitness) (pi : SpendPublicInputs)
    (inputs : List InputWitness) :
    ∀ (i valueIn total : ℕ), checkInputs w pi i inputs valueIn = .ok total ↔
      (∀ k input, inputs[k]? = some input → InputSatisfied w pi (i + k) input) ∧
        total = valueIn + valueSum (inputs.map InputWitness.note) := by
  induction inputs with
  | nil => simp [checkInputs, valueSum, eq_comm]
  | cons input rest ih =>
      intro i valueIn total
      rw [checkInputs]
      cases checked : checkInput w pi i input with
      | error error =>
          have unsatisfied : ¬InputSatisfied w pi i input := by
            rw [← checkInput_ok_iff, checked]
            simp
          simp only [reduceCtorEq, false_iff, not_and]
          exact fun all => absurd (by simpa using all 0 input rfl) unsatisfied
      | ok _ =>
          have satisfied := (checkInput_ok_iff w pi i input).mp checked
          have shift (k : ℕ) : i + 1 + k = i + (k + 1) := by omega
          simp only [ih, shift, valueSum, List.map_cons, List.sum_cons, ← Nat.add_assoc]
          refine and_congr_left fun _ => ⟨fun later k other found => ?_, fun all k => all (k + 1)⟩
          cases k with
          | zero =>
              obtain rfl : input = other := by simpa using found
              exact satisfied
          | succ k => exact later k other (by simpa using found)

theorem checkOutputs_ok_iff (w : SpendWitness) (pi : SpendPublicInputs) (outputs : List Note) :
    ∀ (i valueOut total : ℕ),
      checkOutputs w pi (pi.nullifiers.headD ⟨Bytes.filled 32 0⟩) i outputs valueOut = .ok total ↔
      (∀ k out, outputs[k]? = some out → OutputSatisfied w pi (i + k) out) ∧
        total = valueOut + valueSum outputs := by
  induction outputs with
  | nil => simp [checkOutputs, valueSum, eq_comm]
  | cons out rest ih =>
      intro i valueOut total
      rw [checkOutputs]
      cases checked : checkOutput w pi (pi.nullifiers.headD ⟨Bytes.filled 32 0⟩) i out with
      | error error =>
          have unsatisfied : ¬OutputSatisfied w pi i out := by
            rw [← checkOutput_ok_iff, checked]
            simp
          simp only [reduceCtorEq, false_iff, not_and]
          exact fun all => absurd (by simpa using all 0 out rfl) unsatisfied
      | ok _ =>
          have satisfied := (checkOutput_ok_iff w pi i out).mp checked
          have shift (k : ℕ) : i + 1 + k = i + (k + 1) := by omega
          simp only [ih, shift, valueSum, List.map_cons, List.sum_cons, ← Nat.add_assoc]
          refine and_congr_left fun _ => ⟨fun later k other found => ?_, fun all k => all (k + 1)⟩
          cases k with
          | zero =>
              obtain rfl : out = other := by simpa using found
              exact satisfied
          | succ k => exact later k other (by simpa using found)

omit [Blake3] in
theorem checkShape_ok_iff (w : SpendWitness) (pi : SpendPublicInputs) :
    checkShape w pi = .ok () ↔
      (w.inputs.length = txInputs ∧ w.outputs.length = txOutputs) ∧
      (pi.nullifiers.length = txInputs ∧ pi.commitments.length = txOutputs) ∧
      pi.bindingDigest = w.bindingDigest := by
  unfold checkShape
  split_ifs <;> tauto

/-- The check succeeds exactly when every constraint holds. -/
theorem checkSpendStatement_ok_iff (w : SpendWitness) (pi : SpendPublicInputs) :
    checkSpendStatement w pi = .ok () ↔ Satisfied w pi := by
  unfold checkSpendStatement
  constructor
  · intro ok
    cases shape : checkShape w pi with
    | error error => simp only [shape, bind, Except.bind, reduceCtorEq] at ok
    | ok _ =>
        cases ins : checkInputs w pi 0 w.inputs 0 with
        | error error => simp only [shape, ins, bind, Except.bind, reduceCtorEq] at ok
        | ok valueIn =>
            cases outs : checkOutputs w pi (pi.nullifiers.headD ⟨Bytes.filled 32 0⟩) 0
                w.outputs 0 with
            | error error => simp only [shape, ins, outs, bind, Except.bind, reduceCtorEq] at ok
            | ok valueOut =>
                simp only [shape, ins, outs, bind, Except.bind] at ok
                split at ok
                · cases ok
                rename_i mint
                split at ok
                · cases ok
                rename_i balance
                obtain ⟨⟨inputsLen, outputsLen⟩, ⟨nullifiersLen, commitmentsLen⟩, binding⟩ :=
                  (checkShape_ok_iff w pi).mp shape
                obtain ⟨inputsOk, rfl⟩ := (checkInputs_ok_iff w pi _ _ _ _).mp ins
                obtain ⟨outputsOk, rfl⟩ := (checkOutputs_ok_iff w pi _ _ _ _).mp outs
                simp only [Nat.zero_add] at inputsOk outputsOk balance
                exact ⟨inputsLen, outputsLen, nullifiersLen, commitmentsLen, binding, inputsOk,
                  outputsOk, UInt64.lt_iff_toNat_lt.mpr (not_le.mp mint), not_not.mp balance⟩
  · intro sat
    have shape := (checkShape_ok_iff w pi).mpr
      ⟨⟨sat.inputs_length, sat.outputs_length⟩, ⟨sat.nullifiers_length, sat.commitments_length⟩,
        sat.bindingDigest_eq⟩
    have ins := (checkInputs_ok_iff w pi w.inputs 0 0 _).mpr
      ⟨by simpa only [Nat.zero_add] using sat.input, rfl⟩
    have outs := (checkOutputs_ok_iff w pi w.outputs 0 0 _).mpr
      ⟨by simpa only [Nat.zero_add] using sat.output, rfl⟩
    simp only [shape, ins, outs, bind, Except.bind, Nat.zero_add]
    rw [if_neg (not_le.mpr (UInt64.lt_iff_toNat_lt.mp sat.mint_lt)),
      if_neg (not_not.mpr sat.balance)]

end Constraints

/-! ## Sample spends

One note of a known key, alone in the tree, spent with a dummy beside it. -/

section Samples

open Reference

def sampleKey : SpendingKey := SpendingKey.fromSeed (Bytes.filled 32 1)

def recipientKey : SpendingKey := SpendingKey.fromSeed (Bytes.filled 32 2)

def sampleNote : Note :=
  ⟨100, sampleKey.addrTag, Bytes.filled 32 9, Bytes.filled 32 8⟩

def sampleTree : CommitmentTree := (CommitmentTree.new.append sampleNote.commitment).1

def samplePath : MerklePath := (sampleTree.witness 0).getD
  ⟨0, List.Vector.replicate treeDepth (Bytes.filled 32 0)⟩

/-- A spend of the sample note under a nullifier key, with a mint amount that
only the witness carries. -/
def sampleSpend (nk : Bytes32) (mint : UInt64) : SpendWitness :=
  let firstNf := sampleNote.nullifier nk
  { spenderNk := nk
    spenderAddrTag := sampleKey.addrTag
    inputs := [⟨sampleNote, samplePath, false⟩,
      ⟨Note.dummy (Bytes.filled 32 21), samplePath, true⟩]
    outputs := [⟨70 + mint, recipientKey.addrTag, rhoTransfer firstNf 0, Bytes.filled 32 1⟩,
      ⟨30, sampleKey.addrTag, rhoTransfer firstNf 1, Bytes.filled 32 2⟩]
    mintValue := mint
    bindingDigest := Bytes.filled 32 3 }

/-- The public inputs of a wire transfer made with a witness. -/
def transferInputs (w : SpendWitness) : SpendPublicInputs :=
  { publicInputs w ⟨0, sampleTree.root⟩ with mintValue := 0 }

/-- The wire transaction of the honest spend, without ciphertexts. -/
def sampleTx : TxV1 :=
  let w := sampleSpend sampleKey.nk 0
  { anchor := ⟨0, sampleTree.root⟩
    nullifiers := ⟨w.inputs.map fun input => input.note.nullifier sampleKey.nk, rfl⟩
    commitments := ⟨w.outputs.map Note.commitment, rfl⟩
    encOutputs := List.Vector.replicate txOutputs ⟨[]⟩
    antispam := .pow ⟨0⟩
    proof := List.replicate proofBucket 0 }

/-- A verifier that knows one transaction. -/
def sampleVerifier : SpendVerifier where
  verify pi _ := if pi = sampleTx.toPublicInputs then .ok () else .error .invalid

/-- The honest spend, bound to its transaction. -/
def boundSpend : SpendWitness :=
  { sampleSpend sampleKey.nk 0 with bindingDigest := sampleTx.bindingDigest }

/-- The honest spend of the sample note satisfies the statement. -/
theorem sampleSpend_ok : checkSpendStatement (sampleSpend sampleKey.nk 0)
    (transferInputs (sampleSpend sampleKey.nk 0)) = .ok () := by
  decide +kernel

end Samples

/-! ## Balance -/

/-- A satisfied statement balances with the public mint amount exactly when the
witness carries the same amount.  Whatever the public inputs are, those of a wire
transaction included, the outputs are worth no more than the inputs exactly when the
witness's own mint amount is zero. -/
theorem balance_iff_mintValue_eq [Blake3] {w : SpendWitness} {pi : SpendPublicInputs}
    (ok : checkSpendStatement w pi = .ok ()) :
    (valueSum (w.inputs.map InputWitness.note) + pi.mintValue.toNat = valueSum w.outputs ↔
      w.mintValue = pi.mintValue) ∧
    (valueSum w.outputs ≤ valueSum (w.inputs.map InputWitness.note) ↔ w.mintValue = 0) := by
  have balance := ((checkSpendStatement_ok_iff w pi).mp ok).balance
  have words (amount : UInt64) : w.mintValue = amount ↔ w.mintValue.toNat = amount.toNat :=
    UInt64.toNat_inj.symm
  constructor
  · rw [words]
    omega
  · rw [words, UInt64.toNat_zero]
    omega

section Samples

open Reference

/-- The honest sample spend balances, since it mints nothing. -/
theorem balance_of_sampleSpend :
    valueSum ((sampleSpend sampleKey.nk 0).inputs.map InputWitness.note) + 0 =
      valueSum (sampleSpend sampleKey.nk 0).outputs :=
  (balance_iff_mintValue_eq sampleSpend_ok).1.mpr rfl

/-- A witness with a mint amount of its own satisfies the statement of a plain
transfer and takes out five units more than it puts in. -/
theorem balance_not_enforced :
    ¬∀ (_ : Blake3) (w : SpendWitness) (pi : SpendPublicInputs),
      checkSpendStatement w pi = .ok () →
        valueSum (w.inputs.map InputWitness.note) + pi.mintValue.toNat = valueSum w.outputs := by
  intro claim
  have satisfied : checkSpendStatement (sampleSpend sampleKey.nk 5)
      (transferInputs (sampleSpend sampleKey.nk 5)) = .ok () := by
    decide +kernel
  exact absurd (claim Reference.blake3 _ _ satisfied) (by decide +kernel)

end Samples

/-! ## Nullifiers -/

/-- Two keys give one nullifier for a note only if they are equal. -/
theorem published_iff [Blake3] {w : SpendWitness} {pi : SpendPublicInputs}
    (ok : checkSpendStatement w pi = .ok ()) {nk : Bytes32} {i : ℕ} {input : InputWitness}
    (found : w.inputs[i]? = some input)
    (free : CollisionFree
      {nullifierQuery w.spenderNk input.note.rho, nullifierQuery nk input.note.rho}) :
    pi.nullifiers[i]? = some (input.note.nullifier nk) ↔ w.spenderNk = nk := by
  have published := (((checkSpendStatement_ok_iff w pi).mp ok).input i input found).nullifier
  rw [published, Option.some.injEq]
  constructor
  · exact nk_eq_of_nullifier free (by simp) (by simp)
  · intro equal
    rw [equal]

/-- A satisfied spend publishes the nullifier that the owner of the note would
publish exactly when the witness uses the owner's nullifier key; the statement
compares the owner with the address tag of the witness only.  Hence two satisfied
spends of one note publish one nullifier exactly when their keys agree. -/
theorem nullifier_published_iff [Blake3] {w : SpendWitness} {pi : SpendPublicInputs}
    (ok : checkSpendStatement w pi = .ok ()) {key : SpendingKey} {i : ℕ} {input : InputWitness}
    (found : w.inputs[i]? = some input) (owned : input.note.addrTag = key.addrTag)
    (real : input.isDummy = false)
    (free : CollisionFree
      {nullifierQuery w.spenderNk input.note.rho, nullifierQuery key.nk input.note.rho}) :
    w.spenderAddrTag = key.addrTag ∧
    (pi.nullifiers[i]? = some (input.note.nullifier key.nk) ↔ w.spenderNk = key.nk) ∧
    ∀ (w' : SpendWitness) (pi' : SpendPublicInputs) (j : ℕ) (input' : InputWitness),
      checkSpendStatement w' pi' = .ok () → w'.inputs[j]? = some input' →
      input'.note = input.note →
      CollisionFree
        {nullifierQuery w.spenderNk input.note.rho, nullifierQuery w'.spenderNk input.note.rho} →
      (pi.nullifiers[i]? = pi'.nullifiers[j]? ↔ w.spenderNk = w'.spenderNk) := by
  have constraints := ((checkSpendStatement_ok_iff w pi).mp ok).input i input found
  refine ⟨(constraints.owned real).symm.trans owned, published_iff ok found free, ?_⟩
  intro w' pi' j input' ok' found' sameNote free'
  have published' := (((checkSpendStatement_ok_iff w' pi').mp ok').input j input' found').nullifier
  rw [published', sameNote]
  exact published_iff ok found free'

section Samples

open Reference

/-- The honest sample spend publishes the owner's nullifier. -/
theorem nullifier_of_sampleSpend :
    (transferInputs (sampleSpend sampleKey.nk 0)).nullifiers[0]? =
      some (sampleNote.nullifier sampleKey.nk) := by
  have owned : sampleNote.addrTag = sampleKey.addrTag := rfl
  have found : (sampleSpend sampleKey.nk 0).inputs[0]? = some ⟨sampleNote, samplePath, false⟩ := rfl
  exact (nullifier_published_iff sampleSpend_ok found owned rfl
    (Set.injOn_pair.mpr fun _ => rfl)).2.1.mpr rfl

/-- A spend of the sample note under a foreign nullifier key satisfies the
statement and publishes another nullifier than the owner would. -/
theorem nullifier_not_pinned :
    ¬∀ (_ : Blake3) (key : SpendingKey) (w : SpendWitness) (pi : SpendPublicInputs) (i : ℕ)
      (input : InputWitness), checkSpendStatement w pi = .ok () → w.inputs[i]? = some input →
      input.note.addrTag = key.addrTag → input.isDummy = false →
      CollisionFree
        {nullifierQuery w.spenderNk input.note.rho, nullifierQuery key.nk input.note.rho} →
      pi.nullifiers[i]? = some (input.note.nullifier key.nk) := by
  intro claim
  have satisfied : checkSpendStatement (sampleSpend (Bytes.filled 32 66) 0)
      (transferInputs (sampleSpend (Bytes.filled 32 66) 0)) = .ok () := by
    decide +kernel
  have different : sampleNote.nullifier (Bytes.filled 32 66) ≠
      sampleNote.nullifier sampleKey.nk := by
    decide +kernel
  have free : CollisionFree {nullifierQuery (Bytes.filled 32 66) sampleNote.rho,
      nullifierQuery sampleKey.nk sampleNote.rho} :=
    Set.injOn_pair.mpr fun equal => absurd (nullifier_eq_of_digest equal) different
  have published : some (sampleNote.nullifier (Bytes.filled 32 66)) =
      some (sampleNote.nullifier sampleKey.nk) :=
    claim Reference.blake3 sampleKey _ _ 0 ⟨sampleNote, samplePath, false⟩ satisfied rfl rfl rfl
      free
  exact different (Option.some.inj published)

end Samples

end ShieldedLedger
