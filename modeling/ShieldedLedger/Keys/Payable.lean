import ShieldedLedger.General.Packed
import ShieldedLedger.Keys.Text

/-!
# Which decoded addresses hold a valid key

Reading an address checks its length, version and checksum, and not the ML-KEM key
in it.  The key is checked where something is encapsulated to it, by the modulus
check: its coefficients are unpacked, reduced and packed again.  Whether it passes
can be read off the digits of the text.
-/

namespace ShieldedLedger

/-- The modulus of ML-KEM. -/
def mlkemModulus : ℕ := 3329

/-- The bytes of a key that hold its coefficients; a seed stands behind them. -/
def mlkemCoefficientsLen : ℕ := 384 * 3

/-- The check of FIPS 203 on the bytes of an encapsulation key. -/
def ModulusCheck (key : Bytes.Array mlkemPkLen) : Prop :=
  Packed.encode ((Packed.decode (key.toList.take mlkemCoefficientsLen)).map fun word =>
      word % mlkemModulus) =
    key.toList.take mlkemCoefficientsLen

instance (key : Bytes.Array mlkemPkLen) : Decidable (ModulusCheck key) :=
  inferInstanceAs (Decidable (_ = _))

/-- The check passes exactly when all coefficients are reduced. -/
theorem modulusCheck_iff (key : Bytes.Array mlkemPkLen) :
    ModulusCheck key ↔
      ∀ word ∈ Packed.decode (key.toList.take mlkemCoefficientsLen), word < mlkemModulus := by
  apply Packed.encode_map_mod_iff (by decide) (by decide)
  rw [List.length_take, key.toList_length]
  decide

namespace Address

/-- The digits of a text that spell the coefficients of its key: behind the prefix, the version
and the X25519 key. -/
def coefficientDigits (s : String) : List Char :=
  (s.toList.drop (4 + 2 * 33)).take (2 * mlkemCoefficientsLen)

/-- All coefficients spelled by a text are below the modulus. -/
def KeyReduced (s : String) : Prop :=
  ∃ bytes, Hex.decode (coefficientDigits s) = some bytes ∧
    ∀ word ∈ Packed.decode bytes, word < mlkemModulus

variable [Blake3] [HexCodec] (lawful : HexCodec.Lawful)
include lawful

theorem decode_coefficientDigits {s : String} {address : Address} (read : decode s = .ok address) :
    Hex.decode (coefficientDigits s) = some (address.kemPk.toList.take mlkemCoefficientsLen) := by
  obtain ⟨text, split, digits⟩ := (decode_eq_ok_iff lawful).mp read
  have front : addressPrefix.toList.length = 4 := by
    decide
  have place : s.toList.drop (4 + 2 * 33) = text.drop (2 * 33) := by
    rw [split, ← List.drop_drop, List.drop_left' front]
  have key : (address.body ++ checksum address.body).drop 33 =
      address.kemPk.toList ++ (address.addrTag.toList ++ checksum address.body) := by
    rw [body, List.cons_append, List.drop_succ_cons, List.append_assoc, List.append_assoc,
      List.append_assoc, List.drop_left' address.x25519Pk.toList_length]
  have inside : mlkemCoefficientsLen ≤ address.kemPk.toList.length := by
    rw [List.Vector.toList_length]
    decide
  rw [coefficientDigits, place, Hex.decode_slice digits, key,
    List.take_append_of_le_length inside]

/-- The text of a decoded address tells whether its key passes the check. -/
theorem keyReduced_iff {s : String} {address : Address} (read : decode s = .ok address) :
    KeyReduced s ↔ ModulusCheck address.kemPk := by
  rw [modulusCheck_iff, KeyReduced, decode_coefficientDigits lawful read]
  simp

end Address

end ShieldedLedger
