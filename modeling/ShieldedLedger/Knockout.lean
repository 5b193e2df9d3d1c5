import ShieldedLedger.Keys
import ShieldedLedger.ProverDev.Mutations

/-!
# Constraint knockout harness

A canonical spend is broken in twelve ways and every broken statement has to be
rejected.  The battery is a parameter of the check it runs against, since it is to be
run against another prover's check as well.  An unwrap that fails is an absent result.
-/

namespace ShieldedLedger

/-- Outcome of one knockout entry. -/
structure Knockout where
  mutation : String
  expectedConstraint : String
  /-- The mutation was rejected, or the baseline accepted. -/
  passed : Bool
  /-- The constraint message that fired, if any. -/
  fired : Option String
  deriving DecidableEq

/-- The error as it is displayed. -/
def ProveError.display : ProveError → String
  | .unsatisfied constraint => "witness does not satisfy the spend statement: " ++ constraint

/-- A check of the spend statement. -/
abbrev SpendCheck := SpendWitness → SpendPublicInputs → Except ProveError Unit

/-- `byte[0] ^= 0xFF` -/
def flipFirst (bytes : Bytes32) : Bytes32 := bytes.set 0 (bytes.get 0 ^^^ 0xFF)

namespace Knockout

/-- The sibling of the leaf. -/
def leafLevel : Fin treeDepth := ⟨0, by decide⟩

def emptyPath : MerklePath := ⟨0, List.Vector.replicate treeDepth (Bytes.filled 32 0)⟩

variable [Blake3]

/-- Owner of the spent note and of the change. -/
def spender : SpendingKey := .fromSeed (Bytes.filled 32 1)

def recipient : SpendingKey := .fromSeed (Bytes.filled 32 2)

/-- The note of the real input. -/
def spentNote : Note := ⟨100, spender.addrTag, Bytes.filled 32 9, Bytes.filled 32 8⟩

/-- The tree that holds the note and a dummy. -/
def noteTree : CommitmentTree :=
  ((CommitmentTree.new.append spentNote.commitment).1.append
    (Note.dummy (Bytes.filled 32 7)).commitment).1

/-- The real input and the dummy, before they are sorted. -/
def spendInputs (path : MerklePath) : List InputWitness :=
  [⟨spentNote, path, false⟩, ⟨Note.dummy (Bytes.filled 32 5), emptyPath, true⟩]

/-- Canonical valid spend: 100 in, 70 out and 30 change. -/
def baseline : Option (SpendWitness × SpendPublicInputs × Anchor) := do
  let anchor := (noteTree.seal 0).2
  let path ← (noteTree.seal 0).1.witness (CommitmentTree.new.append spentNote.commitment).2
  let inputs := spendInputs path
  let nfs := (inputs.map fun input => input.note.nullifier spender.nk).insertionSort
    fun left right => left.bytes ≤ right.bytes
  let firstNf ← nfs[0]?
  let out0 : Note := ⟨70, recipient.addrTag, rhoTransfer firstNf 0, Bytes.filled 32 1⟩
  let out1 : Note := ⟨30, spender.addrTag, rhoTransfer firstNf 1, Bytes.filled 32 2⟩
  let w := canonicalize
    { spenderNk := spender.nk
      spenderAddrTag := spender.addrTag
      inputs := inputs
      outputs := [out0, out1]
      mintValue := 0
      bindingDigest := Bytes.filled 32 3 }
  return (w, publicInputs w anchor, anchor)

omit [Blake3] in
/-- Expect a mutated statement to be rejected. -/
def expectReject (check : SpendCheck) (mutation expected : String) (w : SpendWitness)
    (pi : SpendPublicInputs) : Knockout :=
  match check w pi with
  | .ok () => ⟨mutation, expected, false, none⟩
  | .error error => ⟨mutation, expected, true, some error.display⟩

omit [Blake3] in
/-- The baseline has to be accepted. -/
def expectAccept (check : SpendCheck) (w : SpendWitness) (pi : SpendPublicInputs) : Knockout :=
  let ok := (check w pi).isOk
  ⟨"baseline (must be valid)", "none", ok,
    if ok then none else some "baseline unexpectedly rejected"⟩

/-- The mutations of a spend with their names and the constraints they are aimed at, in
source order. -/
def entries (real dummy : ℕ) (input : InputWitness) (out : Note) (nf : Nullifier)
    (cm : Commitment) (digest : Bytes32) : List (String × String × Mutation) :=
  [("C1: corrupted membership path", "C1",
      .pathSiblings real
        (input.path.siblings.set leafLevel (flipFirst (input.path.siblings.get leafLevel)))),
    ("C1: forged anchor root", "C1", .anchorRoot (Bytes.filled 32 0xAB)),
    ("C2: tampered nullifier", "C2", .nullifier 0 ⟨flipFirst nf.bytes⟩),
    ("C3: wrong owner tag", "C3",
      .spenderTag (SpendingKey.fromSeed (Bytes.filled 32 99)).addrTag),
    ("C4: dummy with value", "C4", .dummyValue dummy 1000),
    ("C6: input value out of range", "C6", .inputValue real maxMoney),
    ("C6: output value out of range", "C6", .outputValue 0 maxMoney),
    ("C5: mismatched output commitment", "C5", .commitment 0 ⟨flipFirst cm.bytes⟩),
    ("C5: bad output rho derivation", "C5", .outputRho 0 (Bytes.filled 32 0x42)),
    ("C7: value imbalance (inflation)", "C7", .balance 0 (out.value + 1)),
    ("C8: binding digest mismatch", "C8", .bindingDigest (flipFirst digest)),
    ("C0: input arity mismatch", "C0", .inputCount 1)]

/-- The battery for a spend: its first real input and its first dummy are looked up. -/
def battery (w : SpendWitness) (pi : SpendPublicInputs) :
    Option (List (String × String × Mutation)) := do
  let real ← w.inputs.findIdx? fun input => !input.isDummy
  let dummy ← w.inputs.findIdx? fun input => input.isDummy
  let input ← w.inputs[real]?
  let out ← w.outputs[0]?
  let nf ← pi.nullifiers[0]?
  let cm ← pi.commitments[0]?
  return entries real dummy input out nf cm pi.bindingDigest

/-- Run the full mutation battery against a check. -/
def runAgainst (check : SpendCheck) : Option (List Knockout) := do
  let (w, pi, _) ← baseline
  let entries ← battery w pi
  return expectAccept check w pi :: entries.map fun (mutation, expected, m) =>
    expectReject check mutation expected (m.apply w pi).1 (m.apply w pi).2

/-- Run the full mutation battery. -/
def runKnockouts : Option (List Knockout) := runAgainst checkSpendStatement

/-- Every knockout against a check got its intended outcome. -/
def allCaughtBy (check : SpendCheck) : Option Bool :=
  (runAgainst check).map fun results => results.all Knockout.passed

/-- Every knockout got its intended outcome. -/
def allCaught : Option Bool := allCaughtBy checkSpendStatement

end Knockout

end ShieldedLedger
