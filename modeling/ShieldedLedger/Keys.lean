import ShieldedLedger.Notes

/-!
# Key hierarchy and addresses

Every key is derived from the spending key: the authorizing key and through it
the address tag, the nullifier key, and the two key-agreement secrets.

X25519, ML-KEM-768 and ChaCha20-Poly1305 are dependencies and therefore
parameters.
-/

namespace ShieldedLedger

def mlkemPkLen : ℕ := 1184
def mlkemCtLen : ℕ := 1088

/-- The third-party ciphers, with the types of their keys. -/
class Ciphers where
  x25519PublicKey : Bytes32 → Bytes32
  diffieHellman : Bytes32 → Bytes32 → Bytes32
  KemEncapsKey : Type
  KemDecapsKey : Type
  kemFromSeed : Bytes.Array 64 → KemDecapsKey × KemEncapsKey
  kemToBytes : KemEncapsKey → Bytes.Array mlkemPkLen
  kemNew : Bytes.Array mlkemPkLen → Option KemEncapsKey
  encapsulateDeterministic : KemEncapsKey → Bytes32 → Bytes.Array mlkemCtLen × Bytes32
  decapsulate : KemDecapsKey → Bytes.Array mlkemCtLen → Bytes32
  aeadEncrypt : Bytes32 → Bytes.Array 12 → List UInt8 → List UInt8
  aeadDecrypt : Bytes32 → Bytes.Array 12 → List UInt8 → Option (List UInt8)

/-- Root spending authority. -/
structure SpendingKey where
  sk : Bytes32
  deriving DecidableEq

section Derivation

variable [Blake3]

namespace SpendingKey

def fromSeed (seed : Bytes32) : SpendingKey := ⟨deriveKey ds.sk seed.toList⟩

def ask (key : SpendingKey) : Bytes32 := deriveKey ds.ask key.sk.toList

def nk (key : SpendingKey) : Bytes32 := deriveKey ds.nk key.sk.toList

def addrTag (key : SpendingKey) : Bytes32 := hashParts ds.addrTag [key.ask.toList]

def x25519Secret (key : SpendingKey) : Bytes32 := deriveKey ds.x25519 key.sk.toList

/-- The two queries that lead from the spending key to its address tag. -/
def tagQueries (key : SpendingKey) : List Query :=
  [⟨ds.ask, key.sk.toList⟩, partsQuery ds.addrTag [key.ask.toList]]

/-- Keys with one address tag are equal, unless the hash collides on them. -/
theorem eq_of_addrTag {queries : Set Query} (free : CollisionFree queries)
    {left right : SpendingKey} (leftMem : ∀ query ∈ left.tagQueries, query ∈ queries)
    (rightMem : ∀ query ∈ right.tagQueries, query ∈ queries)
    (equal : left.addrTag = right.addrTag) :
    left = right := by
  have fits (key : SpendingKey) : Bytes.Framable [key.ask.toList] := by simp
  have askParts := free.parts_eq (leftMem _ (by simp [tagQueries]))
    (rightMem _ (by simp [tagQueries])) (fits left) (fits right) equal
  have askEq : left.ask = right.ask := List.Vector.eq _ _ (List.cons.inj askParts).1
  have queryEq : (⟨ds.ask, left.sk.toList⟩ : Query) = ⟨ds.ask, right.sk.toList⟩ :=
    free (leftMem _ (by simp [tagQueries])) (rightMem _ (by simp [tagQueries])) askEq
  have skEq : left.sk = right.sk := List.Vector.eq _ _ (Query.mk.inj queryEq).2
  cases left
  cases right
  exact congrArg SpendingKey.mk skEq

end SpendingKey

end Derivation

/-- Public payment address. -/
structure Address where
  x25519Pk : Bytes32
  kemPk : Bytes.Array mlkemPkLen
  addrTag : Bytes32

/-- Can detect and decrypt incoming notes. -/
structure IncomingViewingKey [Ciphers] where
  x25519Sk : Bytes32
  kemDk : Ciphers.KemDecapsKey
  addrTag : Bytes32

inductive AddressError where
  | malformed
  | wrongHrp
  deriving DecidableEq

variable [Blake3] [Ciphers]

namespace SpendingKey

/-- Deterministic ML-KEM-768 key pair from the spending key. -/
def kemKeypair (key : SpendingKey) : Ciphers.KemDecapsKey × Ciphers.KemEncapsKey :=
  Ciphers.kemFromSeed
    ⟨(deriveKey ds.kemSeed key.sk.toList).toList ++
      (deriveKey "unknown.v0.key.kemseed2" key.sk.toList).toList, by simp⟩

def address (key : SpendingKey) : Address where
  x25519Pk := Ciphers.x25519PublicKey key.x25519Secret
  kemPk := Ciphers.kemToBytes key.kemKeypair.2
  addrTag := key.addrTag

def incomingViewingKey (key : SpendingKey) : IncomingViewingKey where
  x25519Sk := key.x25519Secret
  kemDk := key.kemKeypair.1
  addrTag := key.addrTag

end SpendingKey

omit [Blake3] in
def IncomingViewingKey.dh (ivk : IncomingViewingKey) (ephemeralPk : Bytes32) : Bytes32 :=
  Ciphers.diffieHellman ivk.x25519Sk ephemeralPk

omit [Blake3] in
/-- A ciphertext of the right length always parses, so the option is never empty. -/
def IncomingViewingKey.decapsulate (ivk : IncomingViewingKey)
    (ct : Bytes.Array mlkemCtLen) : Option Bytes32 :=
  some (Ciphers.decapsulate ivk.kemDk ct)

omit [Blake3] in
/-- Deterministic encapsulation to an address; the key bytes are validated here. -/
def Address.kemEncapsulate (address : Address) (mSeed : Bytes32) :
    Except AddressError (Bytes.Array mlkemCtLen × Bytes32) :=
  match Ciphers.kemNew address.kemPk with
  | none => .error .malformed
  | some ek => .ok (Ciphers.encapsulateDeterministic ek mSeed)

end ShieldedLedger
