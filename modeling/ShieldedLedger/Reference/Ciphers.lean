import ShieldedLedger.Encryption
import ShieldedLedger.Reference

/-!
# Reference ciphers

Ciphers without any secrecy that agree as the real ones do: both ends of a key
agreement derive one secret, and what was encrypted decrypts under its own key.
-/

namespace ShieldedLedger

namespace Reference

/-- Pad or cut to a number of bytes. -/
def fit (size : ℕ) (bytes : List UInt8) : Bytes.Array size :=
  ⟨(bytes ++ List.replicate size 0).take size, by simp⟩

scoped instance ciphers : Ciphers where
  x25519PublicKey secret := secret
  diffieHellman left right := fit 32 (left.toList.zipWith (· ^^^ ·) right.toList)
  KemEncapsKey := Bytes.Array mlkemPkLen
  KemDecapsKey := Unit
  kemFromSeed seed := ((), fit mlkemPkLen seed.toList)
  kemToBytes key := key
  kemNew bytes := some bytes
  encapsulateDeterministic _ message := (fit mlkemCtLen message.toList, message)
  decapsulate _ ciphertext := fit 32 ciphertext.toList
  aeadEncrypt key _ plaintext := plaintext ++ key.toList.take aeadTagLen
  aeadDecrypt key _ ciphertext :=
    let plaintext := ciphertext.take (ciphertext.length - aeadTagLen)
    if ciphertext = plaintext ++ key.toList.take aeadTagLen then some plaintext else none

end Reference

end ShieldedLedger
