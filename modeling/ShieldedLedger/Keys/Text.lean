import ShieldedLedger.General.Hex
import ShieldedLedger.Keys
import ShieldedLedger.Reference

/-!
# Address text

An address is written as a prefix and the hexadecimal digits of its version, its
fields and a checksum.  The reader takes digits of either case, so an address is
read back from its text and from nothing else but that text with letters in upper
case.

The hex codec is a dependency and therefore a parameter.
-/

namespace ShieldedLedger

/-- The third-party codec of hexadecimal text. -/
class HexCodec where
  encode : List UInt8 → String
  decode : String → Option (List UInt8)

/-- What the codec documents: it writes two lower-case digits for each byte, and reads
digits of either case and nothing else. -/
structure HexCodec.Lawful [HexCodec] : Prop where
  encode_eq (bytes : List UInt8) : encode bytes = String.ofList (Hex.encode bytes)
  decode_eq (text : String) : decode text = Hex.decode text.toList

def addressHrp : String := "unk"
def addressVersion : UInt8 := 0
def addressBodyLen : ℕ := 1 + 32 + mlkemPkLen + 32
def addressChecksumLen : ℕ := 4

/-- The prefix of an address text. -/
def addressPrefix : String := addressHrp ++ "1"

namespace Address

/-- Version and fields, in the order in which they are written. -/
def body (address : Address) : List UInt8 :=
  addressVersion ::
    (address.x25519Pk.toList ++ address.kemPk.toList ++ address.addrTag.toList)

/-- The fields of a payload, which stand behind its version. -/
def ofPayload (payload : Bytes.Array addressBodyLen) : Address where
  x25519Pk := Bytes.slice payload 1 32 (by decide)
  kemPk := Bytes.slice payload 33 mlkemPkLen (by decide)
  addrTag := Bytes.slice payload (33 + mlkemPkLen) 32 (by decide)

@[simp] theorem length_body (address : Address) : address.body.length = addressBodyLen := by
  simp [body, addressBodyLen]
  omega

theorem ofPayload_eq {payload : Bytes.Array addressBodyLen} {address : Address}
    (written : payload.toList = address.body) : ofPayload payload = address := by
  cases address with
  | mk x25519Pk kemPk addrTag =>
      rw [ofPayload, Address.mk.injEq]
      refine ⟨?_, ?_, ?_⟩
      · exact Bytes.slice_eq _ [addressVersion] (kemPk.toList ++ addrTag.toList) rfl
          (by simp [written, body])
      · exact Bytes.slice_eq _ (addressVersion :: x25519Pk.toList) addrTag.toList (by simp)
          (by simp [written, body])
      · exact Bytes.slice_eq _ (addressVersion :: (x25519Pk.toList ++ kemPk.toList)) []
          (by simp; omega) (by simp [written, body])

/-- A payload under the version is the body of the address it holds. -/
theorem body_ofPayload (payload : Bytes.Array addressBodyLen)
    (versioned : payload.toList.head? = some addressVersion) :
    (ofPayload payload).body = payload.toList := by
  have front : payload.toList = addressVersion :: payload.toList.drop 1 := by
    cases bytes : payload.toList with
    | nil => simp [bytes] at versioned
    | cons first rest =>
        rw [bytes] at versioned
        obtain rfl := Option.some.inj versioned
        rfl
  have back : payload.toList.drop (33 + mlkemPkLen + 32) = [] :=
    List.drop_eq_nil_of_le payload.toList_length.le
  rw [body, ofPayload]
  conv_rhs => rw [front]
  rw [Bytes.drop_eq_slice_append payload 1 32 (by decide),
    Bytes.drop_eq_slice_append payload 33 mlkemPkLen (by decide),
    Bytes.drop_eq_slice_append payload (33 + mlkemPkLen) 32 (by decide), back, List.append_nil,
    List.append_assoc]

variable [Blake3]

/-- The checksum over a payload. -/
def checksum (payload : List UInt8) : List UInt8 :=
  (deriveKey "unknown.v0.addr.checksum" payload).toList.take addressChecksumLen

variable [HexCodec]

/-- The text of an address. -/
def encode (address : Address) : String :=
  addressPrefix ++ HexCodec.encode (address.body ++ checksum address.body)

/-- Read an address text. -/
def decode (s : String) : Except AddressError Address :=
  match s.toList.dropPrefix? addressPrefix.toList with
  | none => .error .wrongHrp
  | some text =>
      match HexCodec.decode (String.ofList text) with
      | none => .error .malformed
      | some data =>
          if len : data.length = addressBodyLen + addressChecksumLen then
            if data.head? ≠ some addressVersion then .error .malformed
            else
              let payload : Bytes.Array addressBodyLen :=
                ⟨data.take addressBodyLen, by rw [List.length_take, len]; rfl⟩
              if data.drop addressBodyLen ≠ checksum payload.toList then .error .malformed
              else .ok (ofPayload payload)
          else .error .malformed

omit [HexCodec] in
@[simp] theorem length_checksum (payload : List UInt8) :
    (checksum payload).length = addressChecksumLen := by
  simp [checksum, addressChecksumLen]

/-- The prefix is the one reason for its error; every other refusal is a malformed text. -/
theorem decode_eq_wrongHrp_iff {s : String} :
    decode s = .error .wrongHrp ↔ ¬addressPrefix.toList <+: s.toList := by
  unfold decode
  cases stripped : s.toList.dropPrefix? addressPrefix.toList with
  | none =>
      refine iff_of_true rfl fun ⟨text, split⟩ => ?_
      rw [List.dropPrefix?_eq_some_iff.mpr ⟨_, split.symm, beq_self_eq_true _⟩] at stripped
      cases stripped
  | some text =>
      obtain ⟨start, split, same⟩ := List.dropPrefix?_eq_some_iff.mp stripped
      obtain rfl := eq_of_beq same
      refine iff_of_false (fun refused => ?_) (not_not.mpr ⟨text, split.symm⟩)
      dsimp only at refused
      split at refused
      · cases refused
      · split at refused
        · split at refused
          · cases refused
          · split at refused <;> cases refused
        · cases refused

variable (lawful : HexCodec.Lawful)
include lawful

/-- A text is read as an address exactly when its digits are those of the address and its
checksum, in either case. -/
theorem decode_eq_ok_iff {s : String} {address : Address} :
    decode s = .ok address ↔ ∃ text, s.toList = addressPrefix.toList ++ text ∧
      Hex.decode text = some (address.body ++ checksum address.body) := by
  constructor
  · intro read
    unfold decode at read
    split at read
    · cases read
    rename_i text stripped
    obtain ⟨start, split, same⟩ := List.dropPrefix?_eq_some_iff.mp stripped
    obtain rfl := eq_of_beq same
    refine ⟨text, split, ?_⟩
    split at read
    · cases read
    rename_i data digits
    split at read
    · rename_i len
      split at read
      · cases read
      rename_i versioned
      dsimp only at read
      split at read
      · cases read
      rename_i summed
      obtain rfl := Except.ok.inj read
      have headed : (data.take addressBodyLen).head? = some addressVersion := by
        rw [List.head?_take, if_neg (by decide)]
        exact not_not.mp versioned
      have written := body_ofPayload ⟨data.take addressBodyLen, by rw [List.length_take, len]; rfl⟩
        headed
      rw [lawful.decode_eq, String.toList_ofList] at digits
      rw [written, digits, ← not_not.mp summed]
      exact congrArg some (List.take_append_drop addressBodyLen data).symm
    · cases read
  · rintro ⟨text, split, spelled⟩
    have digits : HexCodec.decode (String.ofList text) =
        some (address.body ++ checksum address.body) := by
      rw [lawful.decode_eq, String.toList_ofList, spelled]
    have stripped : s.toList.dropPrefix? addressPrefix.toList = some text :=
      List.dropPrefix?_eq_some_iff.mpr ⟨_, split, beq_self_eq_true _⟩
    have len : (address.body ++ checksum address.body).length =
        addressBodyLen + addressChecksumLen := by
      rw [List.length_append, length_body, length_checksum]
    have front : (address.body ++ checksum address.body).take addressBodyLen = address.body :=
      List.take_left' address.length_body
    have back : (address.body ++ checksum address.body).drop addressBodyLen =
        checksum address.body :=
      List.drop_left' address.length_body
    have headed : (address.body ++ checksum address.body).head? = some addressVersion := rfl
    simp only [decode, stripped, digits, dif_pos len, headed, ne_eq, not_true_eq_false, if_false,
      List.Vector.toList_mk, front, back]
    exact congrArg Except.ok (ofPayload_eq rfl)

theorem toList_encode (address : Address) :
    (encode address).toList =
      addressPrefix.toList ++ Hex.encode (address.body ++ checksum address.body) := by
  rw [encode, lawful.encode_eq, String.toList_append, String.toList_ofList]

/-- An address is read back from its text. -/
theorem decode_encode (address : Address) : decode (encode address) = .ok address :=
  (decode_eq_ok_iff lawful).mpr ⟨_, toList_encode lawful address, Hex.decode_encode _⟩

/-- A text is read as an address exactly when it starts with the prefix and its lower-case
form is the text of the address. -/
theorem decode_eq_ok_iff_toLower {s : String} {address : Address} :
    decode s = .ok address ↔ addressPrefix.toList <+: s.toList ∧
      s.toList.map Char.toLower = (encode address).toList := by
  have lowerPrefix : addressPrefix.toList.map Char.toLower = addressPrefix.toList := by
    decide
  rw [decode_eq_ok_iff lawful, toList_encode lawful]
  constructor
  · rintro ⟨text, split, digits⟩
    refine ⟨⟨text, split.symm⟩, ?_⟩
    rw [split, List.map_append, lowerPrefix, Hex.decode_eq_some_iff.mp digits]
  · rintro ⟨⟨text, split⟩, lower⟩
    refine ⟨text, split.symm, Hex.decode_eq_some_iff.mpr ?_⟩
    rw [← split, List.map_append, lowerPrefix] at lower
    exact List.append_cancel_left lower

/-- An address is read back from its text.  A text is read as an address exactly when it
starts with the prefix and is the text of the address up to letters in upper case; it is
that text exactly when it has none of those. -/
theorem text_canonical :
    (∀ address : Address, decode (encode address) = .ok address) ∧
    ∀ (s : String) (address : Address),
      (decode s = .ok address ↔ addressPrefix.toList <+: s.toList ∧
        s.toList.map Char.toLower = (encode address).toList) ∧
      (decode s = .ok address →
        (encode address = s ↔ ∀ char ∈ s.toList, char.isUpper = false)) := by
  refine ⟨decode_encode lawful, fun s address => ⟨decode_eq_ok_iff_toLower lawful, ?_⟩⟩
  intro read
  rw [← Hex.map_toLower_eq_iff, ((decode_eq_ok_iff_toLower lawful).mp read).2, String.toList_inj]

end Address

namespace Reference

/-- The documented codec. -/
scoped instance hexCodec : HexCodec where
  encode bytes := String.ofList (Hex.encode bytes)
  decode text := Hex.decode text.toList

theorem hexCodec_lawful : HexCodec.Lawful := ⟨fun _ => rfl, fun _ => rfl⟩

end Reference

section Samples

open Reference

/-- An address whose fields are all ones. -/
def onesAddress : Address :=
  ⟨Bytes.filled 32 255, Bytes.filled mlkemPkLen 255, Bytes.filled 32 255⟩

/-- Its text, with the digits in upper case. -/
def onesText : String :=
  addressPrefix ++ String.ofList
    ((Hex.encode (onesAddress.body ++ Address.checksum onesAddress.body)).map Char.toUpper)

theorem toList_onesText : onesText.toList = addressPrefix.toList ++
    (Hex.encode (onesAddress.body ++ Address.checksum onesAddress.body)).map Char.toUpper := by
  rw [onesText, String.toList_append, String.toList_ofList]

theorem decode_onesText [HexCodec] (lawful : HexCodec.Lawful) :
    Address.decode onesText = .ok onesAddress :=
  (Address.decode_eq_ok_iff lawful).mpr ⟨_, toList_onesText, Hex.decode_map_toUpper_encode _⟩

/-- The text in upper case is accepted, and its letters tell that it is not the text of the
address. -/
theorem text_canonical_sample : Address.encode onesAddress ≠ onesText := by
  intro same
  have read : Address.decode onesText = .ok onesAddress := decode_onesText hexCodec_lawful
  have lower := ((Address.text_canonical hexCodec_lawful).2 onesText onesAddress).2 read
  have letter : 'F' ∈ onesText.toList := by
    rw [toList_onesText]
    decide
  exact absurd (lower.mp same 'F' letter) (by decide)

/-- The text in upper case is accepted and is not the text of the address it is read as. -/
theorem text_not_unique :
    ¬∀ (_ : Blake3) (_ : HexCodec), HexCodec.Lawful → ∀ (s : String) (address : Address),
      Address.decode s = .ok address → Address.encode address = s := by
  intro claim
  have same := claim blake3 hexCodec hexCodec_lawful onesText onesAddress
    (decode_onesText hexCodec_lawful)
  have texts := congrArg (fun s => s.toList[6]?) same
  rw [Address.toList_encode hexCodec_lawful, toList_onesText] at texts
  exact absurd texts (by decide)

end Samples

end ShieldedLedger
