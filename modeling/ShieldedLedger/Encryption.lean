import ShieldedLedger.Keys

/-!
# Hybrid post-quantum note encryption

An output ciphertext is the ephemeral X25519 key, the ML-KEM ciphertext and the
AEAD ciphertext, 1273 bytes in all.  The AEAD key is derived from both shared
secrets and the transcript.  A sender that meets a malformed recipient key
panics, which is the empty option of `encryptNote`.
-/

namespace ShieldedLedger

def memoLen : ℕ := 64
def plaintextLen : ℕ := 1 + 8 + 32 + 32 + memoLen
def aeadTagLen : ℕ := 16
def encOutputLen : ℕ := 32 + mlkemCtLen + plaintextLen + aeadTagLen
def noteVersion : UInt8 := 0

structure EncryptedOutput where
  bytes : List UInt8
  deriving DecidableEq

namespace EncryptedOutput

variable (ct : EncryptedOutput) (len : ct.bytes.length = encOutputLen)

def epk : Bytes32 :=
  ⟨ct.bytes.take 32, by rw [List.length_take, len]; rfl⟩

def mlkemCt : Bytes.Array mlkemCtLen :=
  ⟨(ct.bytes.drop 32).take mlkemCtLen, by rw [List.length_take, List.length_drop, len]; rfl⟩

def aeadCt : List UInt8 := ct.bytes.drop (32 + mlkemCtLen)

end EncryptedOutput

/-- The plaintext layout: version, value, rho, rseed, memo. -/
def encodePlaintext (note : Note) (memo : Bytes.Array memoLen) : List UInt8 :=
  noteVersion :: leBytes note.value.toNat ++ note.rho.toList ++ note.rseed.toList ++ memo.toList

/-- The fields of a plaintext of the right length and version. -/
def decodePlaintext (pt : List UInt8) (addrTag : Bytes32) : Option Note :=
  if len : pt.length = plaintextLen then
    if pt.head? = some noteVersion then
      some {
        value := UInt64.ofNat (Bytes.ofLittleEndian ((pt.drop 1).take 8))
        addrTag := addrTag
        rho := ⟨(pt.drop 9).take 32, by rw [List.length_take, List.length_drop, len]; rfl⟩
        rseed := ⟨(pt.drop 41).take 32, by rw [List.length_take, List.length_drop, len]; rfl⟩ }
    else none
  else none

variable [Blake3]

/-- AEAD key and nonce, bound to both shared secrets and the full transcript. -/
def deriveAead (x25519Ss mlkemSs epk : Bytes32) (mlkemCt : Bytes.Array mlkemCtLen)
    (memoTag : Bytes32) : Bytes32 × Bytes.Array 12 :=
  let k := hashParts ds.noteAead
    [x25519Ss.toList, mlkemSs.toList, epk.toList, mlkemCt.toList, memoTag.toList]
  let n := hashParts "unknown.v0.enc.nonce" [k.toList]
  (k, ⟨n.toList.take 12, by simp⟩)

variable [Ciphers]

/-- Encrypt a note to a recipient. -/
def encryptNote (note : Note) (recipient : Address) (memo : Bytes.Array memoLen)
    (ephemeralSeed : Bytes32) : Option EncryptedOutput :=
  let ephSecret := hashParts ds.x25519 [ephemeralSeed.toList]
  let epk := Ciphers.x25519PublicKey ephSecret
  let x25519Ss := Ciphers.diffieHellman ephSecret recipient.x25519Pk
  let kemSeed := hashParts ds.kemSeed [ephemeralSeed.toList]
  match recipient.kemEncapsulate kemSeed with
  | .error _ => none
  | .ok (mlkemCt, mlkemSs) =>
      let (key, nonce) := deriveAead x25519Ss mlkemSs epk mlkemCt recipient.addrTag
      let ct := Ciphers.aeadEncrypt key nonce (encodePlaintext note memo)
      some ⟨epk.toList ++ mlkemCt.toList ++ ct⟩

/-- Trial-decrypt one output with an incoming viewing key. -/
def tryDecrypt (ct : EncryptedOutput) (ivk : IncomingViewingKey) : Option Note :=
  if len : ct.bytes.length = encOutputLen then do
    let epk := ct.epk len
    let mlkemCt := ct.mlkemCt len
    let x25519Ss := ivk.dh epk
    let mlkemSs ← ivk.decapsulate mlkemCt
    let (key, nonce) := deriveAead x25519Ss mlkemSs epk mlkemCt ivk.addrTag
    let pt ← Ciphers.aeadDecrypt key nonce ct.aeadCt
    decodePlaintext pt ivk.addrTag
  else none

/-- Batch trial-decryption: the outputs that decrypted, by their indices. -/
def scan (outputs : List EncryptedOutput) (ivk : IncomingViewingKey) : List (ℕ × Note) :=
  outputs.zipIdx.filterMap fun output => (tryDecrypt output.1 ivk).map fun note => (output.2, note)

/-- A decrypted note always carries the tag of the key that decrypted it. -/
theorem addrTag_of_tryDecrypt {ct : EncryptedOutput} {ivk : IncomingViewingKey} {note : Note}
    (decrypted : tryDecrypt ct ivk = some note) : note.addrTag = ivk.addrTag := by
  unfold tryDecrypt at decrypted
  split at decrypted
  · simp only [IncomingViewingKey.decapsulate, Option.bind_eq_bind, Option.bind_some,
      Option.bind_eq_some_iff] at decrypted
    obtain ⟨pt, -, decoded⟩ := decrypted
    unfold decodePlaintext at decoded
    split at decoded
    · split at decoded
      · rw [← Option.some.inj decoded]
      · cases decoded
    · cases decoded
  · cases decrypted

end ShieldedLedger
