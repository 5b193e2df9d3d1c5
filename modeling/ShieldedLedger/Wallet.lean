import ShieldedLedger.ProverDev
import Mathlib.Data.List.MinMax
import Mathlib.Data.Finset.Insert

/-!
# Wallet

A wallet holds the notes it has decrypted, drops those whose nullifier it has
observed, and builds transfers of one or two notes padded with dummies to the
uniform shape.
-/

namespace ShieldedLedger

structure NoteRecord where
  note : Note
  position : ℕ
  deriving DecidableEq

inductive WalletError where
  | insufficientFunds («have» need : UInt64)
  | tooManyInputsNeeded
  | missingWitness (position : ℕ)
  | prove (constraint : String)
  deriving DecidableEq

/-- Why a call did not return a transaction: an error, or a panic. -/
inductive TransferFailure where
  | error (error : WalletError)
  | panicked
  deriving DecidableEq

structure Wallet where
  sk : SpendingKey
  unspent : List NoteRecord
  seenNullifiers : Finset Nullifier

/-- Sum of `u64` note values. -/
def sumValues (records : List NoteRecord) : UInt64 :=
  records.foldl (fun sum record => sum + record.note.value) 0

namespace Wallet

def balance (self : Wallet) : UInt64 := sumValues self.unspent

/-- Select one or two unspent notes covering an amount: the least sufficient
single note, else the two largest. -/
def selectInputs (self : Wallet) (amount : UInt64) : Except WalletError (List NoteRecord) :=
  let total := self.balance
  if total < amount then .error (.insufficientFunds total amount)
  else match (self.unspent.filter fun r => r.note.value ≥ amount).argmin fun r =>
      r.note.value.toNat with
    | some r => .ok [r]
    | none =>
        let sorted := self.unspent.insertionSort fun left right =>
          right.note.value ≤ left.note.value
        let pair := sorted.take txInputs
        if sumValues pair < amount then .error .tooManyInputsNeeded else .ok pair

end Wallet

def emptyPath : MerklePath := ⟨0, List.Vector.replicate treeDepth (Bytes.filled 32 0)⟩

variable [Blake3]

def deriveRseed (seed : Bytes32) (idx : UInt8) : Bytes32 :=
  hashParts "unknown.v0.wallet.rseed" [seed.toList, [idx]]

/-- The padding input at a counter: its entropy is a constant of the wallet. -/
def dummyInput (dummyCtr : ℕ) : InputWitness :=
  ⟨Note.dummy (Bytes.filled 32 (0xD0 ^^^ UInt8.ofNat dummyCtr)), emptyPath, true⟩

/-- Pad to the uniform number of inputs with dummies. -/
def padInputs (inputs : List InputWitness) : List InputWitness :=
  inputs ++ (List.range (txInputs - inputs.length)).map dummyInput

namespace Wallet

def fromSeed (seed : Bytes32) : Wallet := ⟨SpendingKey.fromSeed seed, [], ∅⟩

/-- Process revealed nullifiers: drop the notes that have been spent. -/
def observeNullifiers (self : Wallet) (nullifiers : List Nullifier) : Wallet :=
  let seen := nullifiers.foldl (fun seen nf => insert nf seen) self.seenNullifiers
  { self with
    seenNullifiers := seen
    unspent := self.unspent.filter fun r => decide (r.note.nullifier self.sk.nk ∉ seen) }

/-- Witnesses of the selected notes, resolved by the node. -/
def inputWitnesses (witnessFor : ℕ → Option MerklePath) :
    List NoteRecord → Except TransferFailure (List InputWitness)
  | [] => .ok []
  | r :: rest =>
      match witnessFor r.position with
      | none => .error (.error (.missingWitness r.position))
      | some path => do
          let inputs ← inputWitnesses witnessFor rest
          .ok (⟨r.note, path, false⟩ :: inputs)

variable [Ciphers]

def address (self : Wallet) : Address := self.sk.address

/-- Try to receive one on-chain output at a known tree position. -/
def tryReceive (self : Wallet) (enc : EncryptedOutput) (position : ℕ) : Wallet × Bool :=
  match tryDecrypt enc self.sk.incomingViewingKey with
  | some note =>
      if note.value > 0 then
        ({ self with unspent := self.unspent ++ [⟨note, position⟩] }, true)
      else (self, true)
  | none => (self, false)

/-- Encrypt, prove and assemble a transfer of prepared inputs and outputs. -/
def finishTransfer (self : Wallet) (recipient : Address) (anchor : Anchor) (rngSeed : Bytes32)
    (inputs : List InputWitness) (firstNf secondNf : Nullifier) (outRecipient outChange : Note) :
    Except TransferFailure TxV1 :=
  let memo := Bytes.filled memoLen 0
  match encryptNote outRecipient recipient memo (deriveRseed rngSeed 10),
      encryptNote outChange self.address memo (deriveRseed rngSeed 11) with
  | some enc0, some enc1 =>
      let unproven : TxV1 := {
        anchor
        nullifiers := ⟨[firstNf, secondNf], rfl⟩
        commitments := ⟨[outRecipient.commitment, outChange.commitment], rfl⟩
        encOutputs := ⟨[enc0, enc1], rfl⟩
        antispam := .pow ⟨0⟩
        proof := List.replicate proofBucket 0 }
      let binding := unproven.bindingDigest
      let witness : SpendWitness := {
        spenderNk := self.sk.nk
        spenderAddrTag := self.sk.addrTag
        inputs
        outputs := [outRecipient, outChange]
        mintValue := 0
        bindingDigest := binding }
      match prove witness anchor with
      | .error (.unsatisfied constraint) => .error (.error (.prove constraint))
      | .ok (_, proof) =>
          match solve binding 0 with
          | none => .error .panicked
          | some pow => .ok { unproven with antispam := .pow pow, proof }
  | _, _ => .error .panicked

/-- Build a transfer of `amount` to `recipient`; change returns to self. -/
def buildTransfer (self : Wallet) (recipient : Address) (amount : UInt64) (anchor : Anchor)
    (witnessFor : ℕ → Option MerklePath) (rngSeed : Bytes32) : Except TransferFailure TxV1 :=
  match self.selectInputs amount with
  | .error error => .error (.error error)
  | .ok selected =>
      let change := sumValues selected - amount
      match inputWitnesses witnessFor selected with
      | .error failure => .error failure
      | .ok real =>
          let inputs := padInputs real
          let nfs := (inputs.map fun input => input.note.nullifier self.sk.nk).insertionSort
            fun left right => left.bytes ≤ right.bytes
          match nfs with
          | firstNf :: secondNf :: _ =>
              let outRecipient : Note := {
                value := amount
                addrTag := recipient.addrTag
                rho := rhoTransfer firstNf 0
                rseed := deriveRseed rngSeed 0 }
              let outChange : Note := {
                value := change
                addrTag := self.sk.addrTag
                rho := rhoTransfer firstNf 1
                rseed := deriveRseed rngSeed 1 }
              self.finishTransfer recipient anchor rngSeed inputs firstNf secondNf outRecipient
                outChange
          | _ => .error .panicked

end Wallet

end ShieldedLedger
