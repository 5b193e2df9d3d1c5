import ShieldedLedger.Interfaces

/-!
# Notes, commitments and nullifiers

A note is committed by hashing its four fields.  Its nullifier depends on the
note through `rho` alone, and otherwise on the nullifier key of the spender.
-/

namespace ShieldedLedger

structure Note where
  value : UInt64
  /-- Recipient tag, binds the note to an address's spend authority. -/
  addrTag : Bytes32
  /-- Globally unique note nonce. -/
  rho : Bytes32
  /-- Commitment randomness. -/
  rseed : Bytes32
  deriving DecidableEq

namespace Note

/-- The four committed fields, as hashed. -/
def parts (note : Note) : List (List UInt8) :=
  [leBytes note.value.toNat, note.addrTag.toList, note.rho.toList, note.rseed.toList]

theorem framable_parts (note : Note) : Bytes.Framable note.parts := by
  simp [parts]

theorem parts_injective : Function.Injective parts := by
  intro left right equal
  simp only [parts, List.cons.injEq, and_true] at equal
  obtain ⟨valueEq, tagEq, rhoEq, rseedEq⟩ := equal
  cases left
  cases right
  simp only [Note.mk.injEq]
  exact ⟨leBytes_toNat_inj.mp valueEq,
    List.Vector.eq _ _ tagEq, List.Vector.eq _ _ rhoEq, List.Vector.eq _ _ rseedEq⟩

end Note

variable [Blake3]

/-- The query behind a note's commitment. -/
def Note.commitmentQuery (note : Note) : Query := partsQuery ds.noteCommitment note.parts

def Note.commitment (note : Note) : Commitment :=
  ⟨hashParts ds.noteCommitment note.parts⟩

/-- The query behind a nullifier. -/
def nullifierQuery (nk rho : Bytes32) : Query :=
  partsQuery ds.nullifier [nk.toList, rho.toList]

/-- The nullifier requires the nullifier key `nk` (spend authority side). -/
def Note.nullifier (note : Note) (nk : Bytes32) : Nullifier :=
  ⟨hashParts ds.nullifier [nk.toList, note.rho.toList]⟩

/-- A dummy input note (value 0) used to pad transactions to the uniform shape. -/
def Note.dummy (entropy : Bytes32) : Note where
  value := 0
  addrTag := hashParts "unknown.v0.note.dummy.tag" [entropy.toList]
  rho := hashParts "unknown.v0.note.dummy.rho" [entropy.toList]
  rseed := hashParts "unknown.v0.note.dummy.rseed" [entropy.toList]

/-- `rho` for transfer outputs: bound to the first input's nullifier. -/
def rhoTransfer (firstInputNf : Nullifier) (outputIndex : UInt8) : Bytes32 :=
  hashParts ds.rhoTransfer [firstInputNf.bytes.toList, [outputIndex]]

/-- `rho` for mint outputs: bound to checkpoint height and index. -/
def rhoMint (height : ℕ) (outputIndex : UInt8) : Bytes32 :=
  hashParts ds.rhoMint [leBytes height, [outputIndex]]

/-- The query behind the `rho` of a transfer output. -/
def rhoTransferQuery (firstInputNf : Nullifier) (outputIndex : UInt8) : Query :=
  partsQuery ds.rhoTransfer [firstInputNf.bytes.toList, [outputIndex]]

/-- The query behind the `rho` of a mint output. -/
def rhoMintQuery (height : ℕ) (outputIndex : UInt8) : Query :=
  partsQuery ds.rhoMint [leBytes height, [outputIndex]]

/-- Notes whose commitments agree are equal, unless the hash collides on them. -/
theorem Note.eq_of_commitment {queries : Set Query} (free : CollisionFree queries)
    {left right : Note} (leftMem : left.commitmentQuery ∈ queries)
    (rightMem : right.commitmentQuery ∈ queries)
    (equal : left.commitment = right.commitment) : left = right :=
  Note.parts_injective (free.parts_eq leftMem rightMem left.framable_parts
    right.framable_parts (Commitment.mk.inj equal))

theorem nullifier_eq_of_digest {note : Note} {left right : Bytes32}
    (equal : digest (nullifierQuery left note.rho) = digest (nullifierQuery right note.rho)) :
    note.nullifier left = note.nullifier right :=
  congrArg Nullifier.mk equal

/-- A nullifier pins the key and the `rho`, unless the hash collides. -/
theorem parts_eq_of_nullifier {queries : Set Query} (free : CollisionFree queries)
    {note note' : Note} {nk nk' : Bytes32} (mem : nullifierQuery nk note.rho ∈ queries)
    (mem' : nullifierQuery nk' note'.rho ∈ queries)
    (equal : note.nullifier nk = note'.nullifier nk') : nk = nk' ∧ note.rho = note'.rho := by
  have fits (nk rho : Bytes32) : Bytes.Framable [nk.toList, rho.toList] := by simp
  have partsEq := free.parts_eq mem mem' (fits nk note.rho) (fits nk' note'.rho)
    (Nullifier.mk.inj equal)
  simp only [List.cons.injEq, and_true] at partsEq
  exact ⟨List.Vector.eq _ _ partsEq.1, List.Vector.eq _ _ partsEq.2⟩

/-- For one `rho`, the nullifier pins the key, unless the hash collides. -/
theorem nk_eq_of_nullifier {queries : Set Query} (free : CollisionFree queries)
    {note : Note} {left right : Bytes32} (leftMem : nullifierQuery left note.rho ∈ queries)
    (rightMem : nullifierQuery right note.rho ∈ queries)
    (equal : note.nullifier left = note.nullifier right) : left = right :=
  (parts_eq_of_nullifier free leftMem rightMem equal).1

/-- The `rho` of a mint output pins its height and index, unless the hash collides. -/
theorem parts_eq_of_rhoMint {queries : Set Query} (free : CollisionFree queries)
    {height height' : ℕ} {i j : UInt8} (mem : rhoMintQuery height i ∈ queries)
    (mem' : rhoMintQuery height' j ∈ queries) (fits : height < 2 ^ 64) (fits' : height' < 2 ^ 64)
    (equal : rhoMint height i = rhoMint height' j) : height = height' ∧ i = j := by
  have framable (height : ℕ) (i : UInt8) : Bytes.Framable [leBytes height, [i]] := by simp
  have partsEq := free.parts_eq mem mem' (framable height i) (framable height' j) equal
  simp only [List.cons.injEq, and_true] at partsEq
  exact ⟨(leBytes_inj fits fits').mp partsEq.1, partsEq.2⟩

end ShieldedLedger
