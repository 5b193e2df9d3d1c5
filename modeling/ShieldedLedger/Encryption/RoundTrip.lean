import ShieldedLedger.Reference.Ciphers

/-!
# The owner of an address opens what is sent to it

Both ends derive one AEAD key: their shared secrets agree, and the transcript they
bind is the same.  The layout of the output and of the plaintext is then read back
field by field.
-/

namespace ShieldedLedger

/-- What the ciphers promise to parties that use matching keys. -/
structure Ciphers.Agree [Ciphers] : Prop where
  /-- X25519: both ends of a key agreement compute one secret. -/
  diffieHellman_comm : ∀ left right : Bytes32,
    Ciphers.diffieHellman left (Ciphers.x25519PublicKey right) =
      Ciphers.diffieHellman right (Ciphers.x25519PublicKey left)
  /-- ML-KEM: a generated encapsulation key is valid and survives its encoding. -/
  kemNew_kemToBytes : ∀ seed : Bytes.Array 64,
    Ciphers.kemNew (Ciphers.kemToBytes (Ciphers.kemFromSeed seed).2) =
      some (Ciphers.kemFromSeed seed).2
  /-- ML-KEM: the generated pair agrees on the shared secret. -/
  decapsulate_encapsulate : ∀ (seed : Bytes.Array 64) (message : Bytes32),
    Ciphers.decapsulate (Ciphers.kemFromSeed seed).1
        (Ciphers.encapsulateDeterministic (Ciphers.kemFromSeed seed).2 message).1 =
      (Ciphers.encapsulateDeterministic (Ciphers.kemFromSeed seed).2 message).2
  /-- ChaCha20-Poly1305: decryption inverts encryption under the same key and nonce. -/
  aeadDecrypt_aeadEncrypt : ∀ (key : Bytes32) (nonce : Bytes.Array 12) (plaintext : List UInt8),
    plaintext.length = plaintextLen →
      Ciphers.aeadDecrypt key nonce (Ciphers.aeadEncrypt key nonce plaintext) = some plaintext
  /-- ChaCha20-Poly1305: the ciphertext is the plaintext's length and a tag. -/
  length_aeadEncrypt : ∀ (key : Bytes32) (nonce : Bytes.Array 12) (plaintext : List UInt8),
    plaintext.length = plaintextLen →
      (Ciphers.aeadEncrypt key nonce plaintext).length = plaintextLen + aeadTagLen

@[simp] theorem length_encodePlaintext (note : Note) (memo : Bytes.Array memoLen) :
    (encodePlaintext note memo).length = plaintextLen := by
  simp [encodePlaintext, plaintextLen]
  omega

/-- The fields of a plaintext are read back, under the tag of the reader. -/
theorem decodePlaintext_encodePlaintext (note : Note) (memo : Bytes.Array memoLen)
    (tag : Bytes32) :
    decodePlaintext (encodePlaintext note memo) tag = some { note with addrTag := tag } := by
  have layout : encodePlaintext note memo = noteVersion ::
      (leBytes note.value.toNat ++ (note.rho.toList ++ (note.rseed.toList ++ memo.toList))) := by
    simp [encodePlaintext]
  have value : ((encodePlaintext note memo).drop 1).take 8 = leBytes note.value.toNat := by
    rw [layout, List.drop_one, List.tail_cons, List.take_left' (length_leBytes _)]
  have rho : ((encodePlaintext note memo).drop 9).take 32 = note.rho.toList := by
    rw [layout, List.drop_succ_cons, List.drop_left' (length_leBytes _),
      List.take_left' note.rho.toList_length]
  have rseed : ((encodePlaintext note memo).drop 41).take 32 = note.rseed.toList := by
    rw [layout, List.drop_succ_cons, show 40 = 8 + 32 from rfl, ← List.drop_drop,
      List.drop_left' (length_leBytes _), List.drop_left' note.rho.toList_length,
      List.take_left' note.rseed.toList_length]
  have versioned : (encodePlaintext note memo).head? = some noteVersion := by
    rw [layout, List.head?_cons]
  rw [decodePlaintext, dif_pos (length_encodePlaintext note memo), if_pos versioned,
    Option.some.injEq]
  refine (Note.mk.injEq ..).mpr ⟨?_, rfl, List.Vector.eq _ _ rho, List.Vector.eq _ _ rseed⟩
  rw [value, ofNat_ofLittleEndian_leBytes]

namespace EncryptedOutput

/-- The layout of an output. -/
def ofParts (epk : Bytes32) (mlkemCt : Bytes.Array mlkemCtLen) (aeadCt : List UInt8) :
    EncryptedOutput :=
  ⟨epk.toList ++ mlkemCt.toList ++ aeadCt⟩

variable {epk : Bytes32} {mlkemCt : Bytes.Array mlkemCtLen} {aeadCt : List UInt8}

theorem length_ofParts (sized : aeadCt.length = plaintextLen + aeadTagLen) :
    (ofParts epk mlkemCt aeadCt).bytes.length = encOutputLen := by
  simp [ofParts, sized, encOutputLen]
  omega

theorem epk_ofParts (len : (ofParts epk mlkemCt aeadCt).bytes.length = encOutputLen) :
    (ofParts epk mlkemCt aeadCt).epk len = epk := by
  apply List.Vector.eq
  change (epk.toList ++ mlkemCt.toList ++ aeadCt).take 32 = epk.toList
  rw [List.append_assoc, List.take_left' epk.toList_length]

theorem mlkemCt_ofParts (len : (ofParts epk mlkemCt aeadCt).bytes.length = encOutputLen) :
    (ofParts epk mlkemCt aeadCt).mlkemCt len = mlkemCt := by
  apply List.Vector.eq
  change ((epk.toList ++ mlkemCt.toList ++ aeadCt).drop 32).take mlkemCtLen = mlkemCt.toList
  rw [List.append_assoc, List.drop_left' epk.toList_length, List.take_left' mlkemCt.toList_length]

theorem aeadCt_ofParts : (ofParts epk mlkemCt aeadCt).aeadCt = aeadCt :=
  List.drop_left' (by simp)

end EncryptedOutput

section Opening

variable [Blake3] [Ciphers]

/-- Opening an output of known parts. -/
theorem tryDecrypt_ofParts {epk : Bytes32} {mlkemCt : Bytes.Array mlkemCtLen}
    {aeadCt : List UInt8} (sized : aeadCt.length = plaintextLen + aeadTagLen)
    (ivk : IncomingViewingKey) :
    tryDecrypt (.ofParts epk mlkemCt aeadCt) ivk =
      let aead := deriveAead (ivk.dh epk) (Ciphers.decapsulate ivk.kemDk mlkemCt) epk mlkemCt
        ivk.addrTag
      (Ciphers.aeadDecrypt aead.1 aead.2 aeadCt).bind fun pt => decodePlaintext pt ivk.addrTag := by
  have len : (EncryptedOutput.ofParts epk mlkemCt aeadCt).bytes.length = encOutputLen :=
    EncryptedOutput.length_ofParts sized
  rw [tryDecrypt, dif_pos len, EncryptedOutput.epk_ofParts, EncryptedOutput.mlkemCt_ofParts,
    EncryptedOutput.aeadCt_ofParts]
  rfl

/-- Encapsulation to an own address uses the generated key. -/
theorem kemEncapsulate_address (agree : Ciphers.Agree) (key : SpendingKey) (mSeed : Bytes32) :
    key.address.kemEncapsulate mSeed =
      .ok (Ciphers.encapsulateDeterministic key.kemKeypair.2 mSeed) := by
  have valid : Ciphers.kemNew key.address.kemPk = some key.kemKeypair.2 :=
    agree.kemNew_kemToBytes _
  rw [Address.kemEncapsulate, valid]

/-- What is encrypted to the address of a key has the fixed length and is opened by the viewing
key, provided the note carries the tag of the address. -/
theorem tryDecrypt_encryptNote (agree : Ciphers.Agree) (key : SpendingKey) (note : Note)
    (memo : Bytes.Array memoLen) (ephemeralSeed : Bytes32) (owned : note.addrTag = key.addrTag) :
    ∃ ct, encryptNote note key.address memo ephemeralSeed = some ct ∧
      ct.bytes.length = encOutputLen ∧ tryDecrypt ct key.incomingViewingKey = some note := by
  let ephSecret := hashParts ds.x25519 [ephemeralSeed.toList]
  let epk := Ciphers.x25519PublicKey ephSecret
  let kem := Ciphers.encapsulateDeterministic key.kemKeypair.2
    (hashParts ds.kemSeed [ephemeralSeed.toList])
  let aead := deriveAead (Ciphers.diffieHellman ephSecret key.address.x25519Pk) kem.2 epk kem.1
    key.addrTag
  let aeadCt := Ciphers.aeadEncrypt aead.1 aead.2 (encodePlaintext note memo)
  have encrypted : encryptNote note key.address memo ephemeralSeed =
      some (.ofParts epk kem.1 aeadCt) := by
    rw [encryptNote, kemEncapsulate_address agree]
    rfl
  have sized : aeadCt.length = plaintextLen + aeadTagLen :=
    agree.length_aeadEncrypt _ _ _ (length_encodePlaintext note memo)
  refine ⟨_, encrypted, EncryptedOutput.length_ofParts sized, ?_⟩
  -- The receiver derives the sender's key: both secrets agree, the transcript is the same.
  have x25519Agree : key.incomingViewingKey.dh epk =
      Ciphers.diffieHellman ephSecret key.address.x25519Pk :=
    agree.diffieHellman_comm _ _
  have kemAgree : Ciphers.decapsulate key.incomingViewingKey.kemDk kem.1 = kem.2 :=
    agree.decapsulate_encapsulate _ _
  have opened : Ciphers.aeadDecrypt aead.1 aead.2 aeadCt = some (encodePlaintext note memo) :=
    agree.aeadDecrypt_aeadEncrypt _ _ _ (length_encodePlaintext note memo)
  have tag : key.incomingViewingKey.addrTag = note.addrTag := owned.symm
  rw [tryDecrypt_ofParts sized, x25519Agree, kemAgree]
  change (Ciphers.aeadDecrypt aead.1 aead.2 aeadCt).bind _ = _
  rw [opened, Option.bind_some, decodePlaintext_encodePlaintext, tag]

end Opening

section Samples

open Reference

/-- Padding does not disturb the front. -/
theorem fit_fit_toList {size room : ℕ} (fits : size ≤ room) (bytes : Bytes.Array size) :
    fit size (fit room bytes.toList).toList = bytes := by
  have inner : size ≤ (bytes.toList ++ List.replicate room (0 : UInt8)).length := by simp
  apply List.Vector.eq
  change ((bytes.toList ++ List.replicate room 0).take room ++ List.replicate size 0).take size =
    bytes.toList
  rw [List.take_append_of_le_length (by simp [fits]), List.take_take, Nat.min_eq_left fits,
    List.take_left' bytes.toList_length]

/-- The reference ciphers agree. -/
theorem reference_agree : Ciphers.Agree where
  diffieHellman_comm left right :=
    congrArg (fit 32) (List.zipWith_comm_of_comm UInt8.xor_comm)
  kemNew_kemToBytes seed := rfl
  decapsulate_encapsulate seed message := fit_fit_toList (by decide) message
  aeadDecrypt_aeadEncrypt key nonce plaintext _ := by
    have front : (Ciphers.aeadEncrypt key nonce plaintext).take
        ((Ciphers.aeadEncrypt key nonce plaintext).length - aeadTagLen) = plaintext := by
      change (plaintext ++ key.toList.take aeadTagLen).take
        ((plaintext ++ key.toList.take aeadTagLen).length - aeadTagLen) = plaintext
      simp [aeadTagLen]
    change (if _ = _ then _ else _) = _
    rw [front]
    exact if_pos rfl
  length_aeadEncrypt key nonce plaintext sized := by
    change (plaintext ++ key.toList.take aeadTagLen).length = _
    simp [sized, aeadTagLen]

/-- The owner of the sample notes below. -/
def ownerKey : SpendingKey := SpendingKey.fromSeed (Bytes.filled 32 3)

def ownedNote : Note := ⟨42, ownerKey.addrTag, Bytes.filled 32 5, Bytes.filled 32 6⟩

/-- A note sent to the address of its owner. -/
theorem tryDecrypt_encryptNote_sample :
    ∃ ct, encryptNote ownedNote ownerKey.address (Bytes.filled memoLen 0) (Bytes.filled 32 11) =
        some ct ∧ ct.bytes.length = encOutputLen ∧
      tryDecrypt ct ownerKey.incomingViewingKey = some ownedNote :=
  tryDecrypt_encryptNote reference_agree ownerKey ownedNote _ _ rfl

end Samples

end ShieldedLedger
