import ShieldedLedger.General.Bytes

/-!
# Hashing and key derivation

All protocol hashes are BLAKE3 in key-derivation mode under a context string.
BLAKE3 itself is a dependency, so it is a parameter of the development; the
framing of the hashed parts is the repository's own.

Heights, epochs and tree positions are counters in the source (`u64`, stepped
once per checkpoint or leaf) and natural numbers here.  Amounts, nonces and
field words are `UInt64`, with the wrapping arithmetic of a release build.
-/

namespace ShieldedLedger

/-- `[u8; 32]` -/
abbrev Bytes32 := Bytes.Array 32

/-- The BLAKE3 key-derivation function: context string and key material. -/
class Blake3 where
  deriveKey : String → List UInt8 → Bytes32

/-- One evaluation of the hash: its context and the bytes fed to it. -/
structure Query where
  context : String
  input : List UInt8
  deriving DecidableEq

/-- `u64::to_le_bytes` -/
def leBytes (value : ℕ) : List UInt8 := Bytes.littleEndian 8 value

@[simp] theorem length_leBytes (value : ℕ) : (leBytes value).length = 8 := by
  simp [leBytes]

/-! ## Words -/

theorem leBytes_inj {left right : ℕ} (leftFits : left < 2 ^ 64) (rightFits : right < 2 ^ 64) :
    leBytes left = leBytes right ↔ left = right :=
  @Bytes.littleEndian_inj 8 _ _ (leftFits.trans_le (by norm_num)) (rightFits.trans_le (by norm_num))

theorem leBytes_toNat_inj {left right : UInt64} :
    leBytes left.toNat = leBytes right.toNat ↔ left = right := by
  rw [leBytes_inj left.toNat_lt right.toNat_lt, UInt64.toNat_inj]

theorem ofLittleEndian_leBytes {value : ℕ} (fits : value < 2 ^ 64) :
    Bytes.ofLittleEndian (leBytes value) = value := by
  rw [leBytes, Bytes.ofLittleEndian_littleEndian]
  exact Nat.mod_eq_of_lt fits

theorem ofNat_ofLittleEndian_leBytes (value : UInt64) :
    UInt64.ofNat (Bytes.ofLittleEndian (leBytes value.toNat)) = value := by
  rw [ofLittleEndian_leBytes value.toNat_lt, UInt64.ofNat_toNat]

/-- A word of eight bytes reads as a number that fits and is written back alike. -/
theorem leBytes_ofLittleEndian (word : Bytes.Array 8) :
    leBytes (Bytes.ofLittleEndian word.toList) = word.toList := by
  have written := Bytes.littleEndian_ofLittleEndian word.toList
  rwa [word.toList_length] at written

theorem ofLittleEndian_word_lt (word : Bytes.Array 8) :
    Bytes.ofLittleEndian word.toList < 2 ^ 64 := by
  have bound := Bytes.ofLittleEndian_lt word.toList
  rwa [word.toList_length] at bound

theorem leBytes_toNat_ofLittleEndian (word : Bytes.Array 8) :
    leBytes (UInt64.ofNat (Bytes.ofLittleEndian word.toList)).toNat = word.toList := by
  rw [UInt64.toNat_ofNat_of_lt' (ofLittleEndian_word_lt word), leBytes_ofLittleEndian]

/-! ## Queries -/

variable [Blake3]

/-- The digest a query is answered with. -/
def digest (query : Query) : Bytes32 := Blake3.deriveKey query.context query.input

/-- Derive a 32-byte subkey from parent key material under a context label. -/
def deriveKey (context : String) (keyMaterial : List UInt8) : Bytes32 :=
  Blake3.deriveKey context keyMaterial

/-- The query made by `hashParts`. -/
def partsQuery (context : String) (parts : List (List UInt8)) : Query :=
  ⟨context, Bytes.frame parts⟩

/-- Domain-separated multi-part hash; each part is length-prefixed. -/
def hashParts (context : String) (parts : List (List UInt8)) : Bytes32 :=
  Blake3.deriveKey context (Bytes.frame parts)

/-- No two of the given queries share a digest. -/
def CollisionFree (queries : Set Query) : Prop := Set.InjOn digest queries

/-- Listed queries do not collide if no two of them do, comparing digests as numbers. -/
theorem CollisionFree.of_pairwise {queries : List Query}
    (apart : queries.Pairwise fun left right =>
      Bytes.ofLittleEndian (digest left).toList = Bytes.ofLittleEndian (digest right).toList →
        left = right) :
    CollisionFree {query | query ∈ queries} := by
  have number {left right : Query} (equal : digest left = digest right) :
      Bytes.ofLittleEndian (digest left).toList = Bytes.ofLittleEndian (digest right).toList := by
    rw [equal]
  have separated : ∀ left ∈ queries, ∀ right ∈ queries, digest left = digest right →
      left = right := by
    refine fun left leftMem right rightMem => List.Pairwise.forall_of_forall_of_flip
      (R := fun left right => digest left = digest right → left = right)
      (fun _ _ _ => rfl) ?_ ?_ leftMem rightMem
    · exact apart.imp fun separated equal => separated (number equal)
    · exact apart.imp fun separated equal => (separated (number equal.symm)).symm
  exact fun left leftMem right rightMem equal => separated left leftMem right rightMem equal

/-- Equal digests of collision-free queries come from equal parts. -/
theorem CollisionFree.parts_eq {queries : Set Query} (free : CollisionFree queries)
    {context : String} {left right : List (List UInt8)}
    (leftMem : partsQuery context left ∈ queries)
    (rightMem : partsQuery context right ∈ queries)
    (leftFits : Bytes.Framable left) (rightFits : Bytes.Framable right)
    (equal : hashParts context left = hashParts context right) : left = right := by
  have queryEq : partsQuery context left = partsQuery context right :=
    free leftMem rightMem equal
  exact (Bytes.frame_inj leftFits rightFits).mp (Query.mk.inj queryEq).2

/-- Collision-free queries in different contexts have different digests. -/
theorem CollisionFree.ne_of_context {queries : Set Query} (free : CollisionFree queries)
    {left right : Query} (leftMem : left ∈ queries) (rightMem : right ∈ queries)
    (different : left.context ≠ right.context) : digest left ≠ digest right :=
  fun equal => different (congrArg Query.context (free leftMem rightMem equal))

/-! Protocol domain-separation contexts, all in one place. -/

namespace ds

def noteCommitment : String := "unknown.v0.note.cm"
def nullifier : String := "unknown.v0.note.nf"
def rhoTransfer : String := "unknown.v0.note.rho.transfer"
def rhoMint : String := "unknown.v0.note.rho.mint"
def merkleNode : String := "unknown.v0.tree.node"
def merkleEmpty : String := "unknown.v0.tree.empty"
def txBinding : String := "unknown.v0.tx.binding"
def pow : String := "unknown.v0.antispam.pow"
def devProof : String := "unknown.v0.devproof.INSECURE"
def sk : String := "unknown.v0.key.sk"
def ask : String := "unknown.v0.key.ask"
def nk : String := "unknown.v0.key.nk"
def addrTag : String := "unknown.v0.key.addrtag"
def kemSeed : String := "unknown.v0.key.kemseed"
def x25519 : String := "unknown.v0.key.x25519"
def noteAead : String := "unknown.v0.enc.aead"

end ds

end ShieldedLedger
