import ShieldedLedger.Keys.Payable
import ShieldedLedger.Wallet
import ShieldedLedger.Reference.Ciphers

/-!
# Paying a decoded address

A sender unwraps the encapsulation to the recipient's key, so it panics on a key that
fails the modulus check.  Decoding an address does not make that check: the senders
of a decoded address are safe exactly when its text spells reduced coefficients.
-/

namespace ShieldedLedger

section Sending

variable [Blake3] [Ciphers]

/-- The crate builds a key exactly from bytes that pass the modulus check. -/
def KemNewChecks : Prop :=
  ∀ key : Bytes.Array mlkemPkLen, Ciphers.kemNew key = none ↔ ¬ModulusCheck key

/-- Generated keys pass the modulus check. -/
def GeneratedKeysPass : Prop :=
  ∀ seed : Bytes.Array 64, ModulusCheck (Ciphers.kemToBytes (Ciphers.kemFromSeed seed).2)

omit [Blake3] in
theorem kemEncapsulate_ok_iff (checks : KemNewChecks) (address : Address) (mSeed : Bytes32) :
    (∃ result, address.kemEncapsulate mSeed = .ok result) ↔ ModulusCheck address.kemPk := by
  rw [Address.kemEncapsulate]
  cases built : Ciphers.kemNew address.kemPk with
  | none => simpa using (checks _).mp built
  | some ek =>
      have passes : ModulusCheck address.kemPk := by
        by_contra fails
        rw [(checks _).mpr fails] at built
        cases built
      simpa using passes

/-- Encryption panics exactly on a key that fails the check. -/
theorem encryptNote_eq_none_iff (checks : KemNewChecks) (note : Note) (recipient : Address)
    (memo : Bytes.Array memoLen) (ephemeralSeed : Bytes32) :
    encryptNote note recipient memo ephemeralSeed = none ↔ ¬ModulusCheck recipient.kemPk := by
  rw [← kemEncapsulate_ok_iff checks recipient (hashParts ds.kemSeed [ephemeralSeed.toList]),
    encryptNote]
  cases recipient.kemEncapsulate (hashParts ds.kemSeed [ephemeralSeed.toList]) with
  | error error => simp
  | ok result => simp

namespace Wallet

/-- A wallet's own address can always be paid. -/
theorem modulusCheck_address (generated : GeneratedKeysPass) (self : Wallet) :
    ModulusCheck self.address.kemPk :=
  generated _

theorem finishTransfer_panicked_iff (checks : KemNewChecks) (generated : GeneratedKeysPass)
    {self : Wallet} {recipient : Address} {anchor : Anchor} {rngSeed : Bytes32}
    {inputs : List InputWitness} {firstNf secondNf : Nullifier} {outRecipient outChange : Note} :
    self.finishTransfer recipient anchor rngSeed inputs firstNf secondNf outRecipient outChange =
        .error .panicked ↔ ¬ModulusCheck recipient.kemPk := by
  have own : encryptNote outChange self.address (Bytes.filled memoLen 0) (deriveRseed rngSeed 11) ≠
      none := fun failed =>
    (encryptNote_eq_none_iff checks ..).mp failed (self.modulusCheck_address generated)
  obtain ⟨enc1, encrypted1⟩ := Option.ne_none_iff_exists'.mp own
  rw [← encryptNote_eq_none_iff checks outRecipient recipient (Bytes.filled memoLen 0)
    (deriveRseed rngSeed 10)]
  unfold finishTransfer
  dsimp only
  rw [encrypted1]
  cases encrypted0 : encryptNote outRecipient recipient (Bytes.filled memoLen 0)
      (deriveRseed rngSeed 10) with
  | none => simp
  | some enc0 =>
      simp only [solve_zero]
      split
      · simp
      · simp

omit [Blake3] [Ciphers] in
/-- A missing witness is an error, not a panic. -/
theorem inputWitnesses_ne_panicked (witnessFor : ℕ → Option MerklePath)
    (selected : List NoteRecord) : inputWitnesses witnessFor selected ≠ .error .panicked := by
  induction selected with
  | nil => simp [inputWitnesses]
  | cons record rest ih =>
      rw [inputWitnesses]
      split
      · simp
      · cases later : inputWitnesses witnessFor rest with
        | error failure =>
            rw [later] at ih
            exact ih
        | ok inputs => simp [bind, Except.bind]

omit [Ciphers] in
/-- There are always two inputs, so the two nullifiers of a transfer exist. -/
theorem exists_two_nullifiers (nk : Bytes32) (real : List InputWitness) :
    ∃ firstNf secondNf others,
      ((padInputs real).map fun input => input.note.nullifier nk).insertionSort
        (fun left right => left.bytes ≤ right.bytes) = firstNf :: secondNf :: others := by
  have two : 2 ≤ (((padInputs real).map fun input => input.note.nullifier nk).insertionSort
      fun left right => left.bytes ≤ right.bytes).length := by
    rw [List.length_insertionSort, List.length_map, padInputs, List.length_append, List.length_map,
      List.length_range]
    change 2 ≤ real.length + (2 - real.length)
    omega
  generalize ((padInputs real).map fun input => input.note.nullifier nk).insertionSort
    (fun left right => left.bytes ≤ right.bytes) = nfs at two
  match nfs, two with
  | firstNf :: secondNf :: others, _ => exact ⟨firstNf, secondNf, others, rfl⟩

/-- Building a transfer panics exactly when its inputs are found and the recipient's key fails
the check. -/
theorem buildTransfer_panicked_iff (checks : KemNewChecks) (generated : GeneratedKeysPass)
    {self : Wallet} {recipient : Address} {amount : UInt64} {anchor : Anchor}
    {witnessFor : ℕ → Option MerklePath} {rngSeed : Bytes32} :
    self.buildTransfer recipient amount anchor witnessFor rngSeed = .error .panicked ↔
      (∃ selected real, self.selectInputs amount = .ok selected ∧
        inputWitnesses witnessFor selected = .ok real) ∧ ¬ModulusCheck recipient.kemPk := by
  unfold buildTransfer
  cases chosen : self.selectInputs amount with
  | error error => simp
  | ok selected =>
      dsimp only
      cases resolved : inputWitnesses witnessFor selected with
      | error failure =>
          have error : failure ≠ .panicked := fun panicked =>
            inputWitnesses_ne_panicked witnessFor selected
              (resolved.trans (congrArg Except.error panicked))
          simp [resolved, error]
      | ok real =>
          obtain ⟨firstNf, secondNf, others, sorted⟩ := exists_two_nullifiers self.sk.nk real
          simp only [sorted, finishTransfer_panicked_iff checks generated, Except.ok.injEq]
          simp [resolved]

end Wallet

/-! ## Decoded addresses -/

/-- A note worth one unit. -/
def unitRecord : NoteRecord :=
  ⟨⟨1, Bytes.filled 32 0, Bytes.filled 32 0, Bytes.filled 32 0⟩, 0⟩

/-- A wallet that holds just that note. -/
def unitWallet : Wallet := ⟨⟨Bytes.filled 32 0⟩, [unitRecord], ∅⟩

omit [Blake3] [Ciphers] in
theorem selectInputs_unitWallet : unitWallet.selectInputs 1 = .ok [unitRecord] := rfl

/-- Encapsulating to a decoded address, encrypting to it and building transfers to it all
succeed or fail without a panic exactly when its text spells reduced coefficients. -/
theorem payable_iff [HexCodec] (lawful : HexCodec.Lawful) (checks : KemNewChecks)
    (generated : GeneratedKeysPass) {s : String} {address : Address}
    (read : Address.decode s = .ok address) :
    ((∀ mSeed, ∃ result, address.kemEncapsulate mSeed = .ok result) ↔ Address.KeyReduced s) ∧
    ((∀ note memo ephemeralSeed, encryptNote note address memo ephemeralSeed ≠ none) ↔
      Address.KeyReduced s) ∧
    ((∀ (wallet : Wallet) amount anchor witnessFor rngSeed,
      wallet.buildTransfer address amount anchor witnessFor rngSeed ≠ .error .panicked) ↔
        Address.KeyReduced s) := by
  rw [Address.keyReduced_iff lawful read]
  refine ⟨?_, ?_, ?_⟩
  · simp only [kemEncapsulate_ok_iff checks, forall_const]
  · simp only [ne_eq, encryptNote_eq_none_iff checks, not_not]
    exact ⟨fun safe => safe unitRecord.note (Bytes.filled memoLen 0) (Bytes.filled 32 0),
      fun passes _ _ _ => passes⟩
  · simp only [ne_eq, Wallet.buildTransfer_panicked_iff checks generated, not_and, not_not]
    constructor
    · intro safe
      exact safe unitWallet 1 ⟨0, Bytes.filled 32 0⟩ (fun _ => some emptyPath) (Bytes.filled 32 0)
        ⟨_, _, selectInputs_unitWallet, rfl⟩
    · intro passes _ _ _ _ _ _
      exact passes

end Sending

/-! ## Ciphers that check their keys -/

namespace CheckedReference

scoped instance blake3 : Blake3 := Reference.blake3

/-- The reference ciphers with the modulus check; generated keys are made of small bytes. -/
scoped instance ciphers : Ciphers :=
  { Reference.ciphers with
    kemFromSeed := fun seed => ((), Reference.fit mlkemPkLen (seed.toList.map (· % 8)))
    kemNew := fun key => if ModulusCheck key then some key else none }

scoped instance hexCodec : HexCodec := Reference.hexCodec

theorem lawful : HexCodec.Lawful := Reference.hexCodec_lawful

theorem checks : KemNewChecks := by
  intro key
  change (if ModulusCheck key then some key else none) = none ↔ _
  by_cases passes : ModulusCheck key
  · simp [passes]
  · simp [passes]

theorem generated : GeneratedKeysPass := by
  intro seed
  rw [modulusCheck_iff]
  have small : 257 * 8 ≤ mlkemModulus := by
    decide
  refine Packed.lt_of_mem_decode small fun byte member => ?_
  have padded : byte ∈ seed.toList.map (· % 8) ++ List.replicate mlkemPkLen 0 :=
    List.mem_of_mem_take (List.mem_of_mem_take member)
  rcases List.mem_append.mp padded with masked | zero
  · obtain ⟨original, -, rfl⟩ := List.mem_map.mp masked
    rw [UInt8.toNat_mod]
    exact Nat.mod_lt _ (by decide)
  · obtain rfl := List.eq_of_mem_replicate zero
    decide

end CheckedReference

section Samples

open CheckedReference

/-- A generated address can be paid. -/
theorem payable_iff_sample :
    unitWallet.buildTransfer (SpendingKey.fromSeed (Bytes.filled 32 2)).address 1
        ⟨0, Bytes.filled 32 0⟩ (fun _ => some emptyPath) (Bytes.filled 32 0) ≠
      .error .panicked := by
  let address := (SpendingKey.fromSeed (Bytes.filled 32 2)).address
  have read : Address.decode (Address.encode address) = .ok address :=
    Address.decode_encode lawful address
  have reduced : Address.KeyReduced (Address.encode address) :=
    (Address.keyReduced_iff lawful read).mpr (generated _)
  exact (payable_iff lawful checks generated read).2.2.mpr reduced _ _ _ _ _

/-- The text of an address of ones is decoded, and encapsulating to that address fails. -/
theorem decoded_not_payable :
    ¬∀ (_ : Blake3) (_ : Ciphers) (_ : HexCodec), HexCodec.Lawful → KemNewChecks →
      GeneratedKeysPass → ∀ (s : String) (address : Address), Address.decode s = .ok address →
        (∀ mSeed, ∃ result, address.kemEncapsulate mSeed = .ok result) ∧
        (∀ note memo ephemeralSeed, encryptNote note address memo ephemeralSeed ≠ none) ∧
        ∀ (wallet : Wallet) amount anchor witnessFor rngSeed,
          wallet.buildTransfer address amount anchor witnessFor rngSeed ≠ .error .panicked := by
  intro claim
  have fails : ¬ModulusCheck onesAddress.kemPk := by
    rw [modulusCheck_iff]
    intro reduced
    exact absurd (reduced 4095 (by decide)) (by decide)
  have safe := claim blake3 ciphers hexCodec lawful checks generated _ onesAddress
    (Address.decode_encode lawful onesAddress)
  exact fails ((kemEncapsulate_ok_iff checks onesAddress (Bytes.filled 32 0)).mp (safe.1 _))

end Samples

end ShieldedLedger
