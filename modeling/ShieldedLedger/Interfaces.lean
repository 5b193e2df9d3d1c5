import ShieldedLedger.Primitives

/-!
# Frozen cross-crate types

Commitments and nullifiers are 32-byte digests kept apart by their type.  The
public inputs of the spend statement hold vectors of any length, as in the
source; the wire shape fixes both to two.
-/

namespace ShieldedLedger

/-- Merkle tree depth for the note commitment tree. -/
def treeDepth : ℕ := 32

/-- Anchor validity window in checkpoints. -/
def anchorWindow : ℕ := 1024

/-- Maximum money supply in atomic units. -/
def maxMoney : UInt64 := (1 : UInt64) <<< (62 : UInt64)

/-- Uniform transfer shape: two inputs, two outputs. -/
abbrev txInputs : ℕ := 2
abbrev txOutputs : ℕ := 2

instance : NeZero txInputs := ⟨two_ne_zero⟩

instance : NeZero txOutputs := ⟨two_ne_zero⟩

/-- Fixed proof bucket size. -/
def proofBucket : ℕ := 192

structure Commitment where
  bytes : Bytes32
  deriving DecidableEq

structure Nullifier where
  bytes : Bytes32
  deriving DecidableEq

/-- Nullifiers are ordered by their bytes. -/
instance : LinearOrder Nullifier :=
  LinearOrder.lift' Nullifier.bytes fun left right equal => by
    cases left
    cases right
    exact congrArg Nullifier.mk equal

/-- A sealed checkpoint anchor: the commitment-tree root at a given height. -/
structure Anchor where
  height : ℕ
  root : Bytes32
  deriving DecidableEq

/-- The bytes of an anchor pin it. -/
theorem Anchor.eq_of_bytes {left right : Anchor} (leftFits : left.height < 2 ^ 64)
    (rightFits : right.height < 2 ^ 64) (heights : leBytes left.height = leBytes right.height)
    (roots : left.root.toList = right.root.toList) : left = right := by
  have height : left.height = right.height := (leBytes_inj leftFits rightFits).mp heights
  calc left = ⟨left.height, left.root⟩ := rfl
    _ = ⟨right.height, right.root⟩ := by rw [height, List.Vector.eq _ _ roots]

/-- Authentication path for a leaf in the commitment tree. -/
structure MerklePath where
  position : ℕ
  siblings : List.Vector Bytes32 treeDepth
  deriving DecidableEq

/-- Public inputs of the spend statement. -/
structure SpendPublicInputs where
  anchor : Anchor
  nullifiers : List Nullifier
  commitments : List Commitment
  bindingDigest : Bytes32
  mintValue : UInt64
  deriving DecidableEq

/-- Canonical encoding used for proof binding: fixed layout, little-endian. -/
def SpendPublicInputs.encode (pi : SpendPublicInputs) : List UInt8 :=
  leBytes pi.anchor.height ++ pi.anchor.root.toList ++
    UInt8.ofNat pi.nullifiers.length :: (pi.nullifiers.flatMap fun nf => nf.bytes.toList) ++
    UInt8.ofNat pi.commitments.length :: (pi.commitments.flatMap fun cm => cm.bytes.toList) ++
    pi.bindingDigest.toList ++ leBytes pi.mintValue.toNat

inductive ProveError where
  | unsatisfied (constraint : String)
  deriving DecidableEq

inductive VerifyError where
  | invalid
  | malformed
  deriving DecidableEq

/-- Implemented by proof systems; it sees the public inputs and the proof bytes. -/
structure SpendVerifier where
  verify : SpendPublicInputs → List UInt8 → Except VerifyError Unit

end ShieldedLedger
