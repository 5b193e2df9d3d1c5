import ShieldedLedger.Tree
import ShieldedLedger.Tx
import Mathlib.Data.List.Sort

/-!
# Spend statement and development prover

`checkSpendStatement` is the executable form of the spend constraints.  The
development proof is a tag over the public inputs, which anyone can compute.
-/

namespace ShieldedLedger

structure InputWitness where
  note : Note
  path : MerklePath
  isDummy : Bool
  deriving DecidableEq

/-- Full witness for a transfer. -/
structure SpendWitness where
  spenderNk : Bytes32
  spenderAddrTag : Bytes32
  inputs : List InputWitness
  outputs : List Note
  mintValue : UInt64
  bindingDigest : Bytes32
  deriving DecidableEq

variable [Blake3]

/-- Sort the inputs ascending by nullifier, as the wire format does. -/
def canonicalize (w : SpendWitness) : SpendWitness :=
  { w with inputs := w.inputs.insertionSort fun left right =>
      (left.note.nullifier w.spenderNk).bytes ≤ (right.note.nullifier w.spenderNk).bytes }

/-- The public inputs a witness commits to, in the order of its inputs. -/
def publicInputs (w : SpendWitness) (anchor : Anchor) : SpendPublicInputs where
  anchor := anchor
  nullifiers := w.inputs.map fun input => input.note.nullifier w.spenderNk
  commitments := w.outputs.map Note.commitment
  bindingDigest := w.bindingDigest
  mintValue := w.mintValue

/-- The checks made on one input, in source order. -/
def checkInput (w : SpendWitness) (pi : SpendPublicInputs) (i : ℕ) (input : InputWitness) :
    Except ProveError Unit :=
  if input.isDummy && input.note.value != 0 then
    .error (.unsatisfied "C4: dummy note must have zero value")
  else if input.note.value ≥ maxMoney then
    .error (.unsatisfied "C6: input value out of range")
  else if !input.isDummy && !verifyPath input.note.commitment input.path pi.anchor.root then
    .error (.unsatisfied "C1: membership proof invalid")
  else if !input.isDummy && input.note.addrTag != w.spenderAddrTag then
    .error (.unsatisfied "C3: note not owned by spender")
  else if some (input.note.nullifier w.spenderNk) ≠ pi.nullifiers[i]? then
    .error (.unsatisfied "C2: nullifier derivation mismatch")
  else .ok ()

/-- Check the inputs from position `i` on, summing their values in `u128`. -/
def checkInputs (w : SpendWitness) (pi : SpendPublicInputs) :
    (i : ℕ) → List InputWitness → (valueIn : ℕ) → Except ProveError ℕ
  | _, [], valueIn => .ok valueIn
  | i, input :: rest, valueIn =>
      match checkInput w pi i input with
      | .error error => .error error
      | .ok () => checkInputs w pi (i + 1) rest (valueIn + input.note.value.toNat)

/-- The checks made on one output, in source order. -/
def checkOutput (w : SpendWitness) (pi : SpendPublicInputs) (firstNf : Nullifier) (i : ℕ)
    (out : Note) : Except ProveError Unit :=
  if out.value ≥ maxMoney then
    .error (.unsatisfied "C6: output value out of range")
  else if some out.commitment ≠ pi.commitments[i]? then
    .error (.unsatisfied "C5: output commitment mismatch")
  else if w.mintValue = 0 ∧ out.rho ≠ rhoTransfer firstNf (UInt8.ofNat i) then
    .error (.unsatisfied "C5: output rho derivation invalid")
  else .ok ()

/-- Check the outputs from position `i` on, summing their values in `u128`. -/
def checkOutputs (w : SpendWitness) (pi : SpendPublicInputs) (firstNf : Nullifier) :
    (i : ℕ) → List Note → (valueOut : ℕ) → Except ProveError ℕ
  | _, [], valueOut => .ok valueOut
  | i, out :: rest, valueOut =>
      match checkOutput w pi firstNf i out with
      | .error error => .error error
      | .ok () => checkOutputs w pi firstNf (i + 1) rest (valueOut + out.value.toNat)

/-- The arity and binding checks made before the inputs are read. -/
def checkShape (w : SpendWitness) (pi : SpendPublicInputs) : Except ProveError Unit :=
  if w.inputs.length ≠ txInputs ∨ w.outputs.length ≠ txOutputs then
    .error (.unsatisfied "C0: wrong input/output arity")
  else if pi.nullifiers.length ≠ txInputs ∨ pi.commitments.length ≠ txOutputs then
    .error (.unsatisfied "C0: public input arity")
  else if pi.bindingDigest ≠ w.bindingDigest then
    .error (.unsatisfied "C8: binding digest mismatch")
  else .ok ()

/-- Executable specification of the spend constraints. -/
def checkSpendStatement (w : SpendWitness) (pi : SpendPublicInputs) : Except ProveError Unit := do
  checkShape w pi
  let valueIn ← checkInputs w pi 0 w.inputs 0
  -- `pi.nullifiers[0]`; the shape check has made the list nonempty
  let firstNf := pi.nullifiers.headD ⟨Bytes.filled 32 0⟩
  let valueOut ← checkOutputs w pi firstNf 0 w.outputs 0
  if w.mintValue.toNat ≥ maxMoney.toNat then
    .error (.unsatisfied "C6: mint value out of range")
  else if valueIn + w.mintValue.toNat ≠ valueOut then
    .error (.unsatisfied "C7: value imbalance")
  else .ok ()

def devTag (pi : SpendPublicInputs) : Bytes32 := hashParts ds.devProof [pi.encode]

/-- The tag, zero-padded to the uniform proof bucket. -/
def devProof (pi : SpendPublicInputs) : List UInt8 :=
  (devTag pi).toList ++ List.replicate (proofBucket - 32) 0

/-- Produce a dev proof; fails when the witness does not satisfy the statement. -/
def prove (w : SpendWitness) (anchor : Anchor) :
    Except ProveError (SpendPublicInputs × List UInt8) :=
  let w := canonicalize w
  let pi := publicInputs w anchor
  match checkSpendStatement w pi with
  | .error error => .error error
  | .ok () => .ok (pi, devProof pi)

/-- The development verifier recomputes the tag. -/
def devVerifier : SpendVerifier where
  verify pi proof :=
    if proof.length ≠ proofBucket then .error .malformed
    else if (proof.drop 32).any fun byte => byte != 0 then .error .malformed
    else if proof.take 32 = (devTag pi).toList then .ok ()
    else .error .invalid

theorem length_devProof (pi : SpendPublicInputs) : (devProof pi).length = proofBucket := by
  rw [devProof, List.length_append, List.Vector.toList_length, List.length_replicate]
  rfl

/-- The development verifier accepts the development proof of its public inputs. -/
theorem verify_devProof (pi : SpendPublicInputs) :
    devVerifier.verify pi (devProof pi) = .ok () := by
  have tag : (devProof pi).take 32 = (devTag pi).toList := by
    rw [devProof, List.take_append_of_le_length (by simp), List.take_of_length_le (by simp)]
  have padding : (devProof pi).drop 32 = List.replicate (proofBucket - 32) 0 := by
    rw [devProof, List.drop_append_of_le_length (by simp), List.drop_eq_nil_of_le (by simp),
      List.nil_append]
  have zeros : ((devProof pi).drop 32).any (fun byte => byte != 0) = false := by
    rw [padding, List.any_replicate]
    rfl
  simp only [devVerifier, length_devProof, zeros, tag, ne_eq, not_true_eq_false, if_false, if_true,
    Bool.false_eq_true]

end ShieldedLedger
