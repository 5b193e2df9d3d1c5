import ShieldedLedger.Tx.Shape

/-!
# What the binding digest binds

The hashed byte string determines its parts, and the parts of the binding digest
determine the anchor, the nullifiers, the commitments and the ciphertexts.  Two
transactions with one digest agree in all of these, or their two hash inputs collide.
-/

namespace ShieldedLedger

/-- Two transactions agree in everything but the proof and the anti-spam body. -/
structure SameBody (left right : TxV1) : Prop where
  anchor : left.anchor = right.anchor
  nullifiers : left.nullifiers = right.nullifiers
  commitments : left.commitments = right.commitments
  encOutputs : left.encOutputs = right.encOutputs

namespace TxV1

/-- The height is a `u64`, and the ciphertexts are vectors of a machine. -/
structure MachineSized (tx : TxV1) : Prop where
  height : tx.anchor.height < 2 ^ 64
  encOutputs : ∀ e ∈ tx.encOutputs.toList, e.bytes.length < 2 ^ 64

/-- The hash query of the binding digest. -/
def bindingQuery (tx : TxV1) : Query := partsQuery ds.txBinding tx.bindingParts

theorem digest_bindingQuery [Blake3] (tx : TxV1) : digest tx.bindingQuery = tx.bindingDigest := rfl

/-- Lengths of the hashed parts fit their prefix. -/
theorem framable_bindingParts {tx : TxV1} (sized : tx.MachineSized) :
    Bytes.Framable tx.bindingParts := by
  have narrow {part : List UInt8} {size : ℕ} (length : part.length = size) (small : size < 2 ^ 64) :
      part.length < 2 ^ 64 := length ▸ small
  intro part member
  simp only [bindingParts, List.cons_append, List.mem_cons, List.mem_append, List.mem_map] at member
  rcases member with rfl | rfl | (⟨nf, _, rfl⟩ | ⟨cm, _, rfl⟩) | ⟨e, listed, rfl⟩
  · exact narrow (length_leBytes _) (by decide)
  · exact narrow (List.Vector.toList_length _) (by decide)
  · exact narrow (List.Vector.toList_length _) (by decide)
  · exact narrow (List.Vector.toList_length _) (by decide)
  · exact sized.encOutputs e listed

/-- Equal parts come from equal bodies. -/
theorem sameBody_of_bindingParts {left right : TxV1} (leftHeight : left.anchor.height < 2 ^ 64)
    (rightHeight : right.anchor.height < 2 ^ 64)
    (equal : left.bindingParts = right.bindingParts) : SameBody left right := by
  simp only [bindingParts, List.cons_append, List.cons.injEq] at equal
  obtain ⟨height, root, lists⟩ := equal
  obtain ⟨digests, ciphertexts⟩ := List.append_inj lists (by simp)
  obtain ⟨nullifiers, commitments⟩ := List.append_inj digests (by simp)
  have bytes {array other : Bytes32} (same : array.toList = other.toList) : array = other :=
    List.Vector.eq _ _ same
  constructor
  · exact Anchor.eq_of_bytes leftHeight rightHeight height root
  · apply List.Vector.eq
    apply List.map_injective_iff.mpr _ nullifiers
    intro nf other same
    cases nf
    cases other
    exact congrArg Nullifier.mk (bytes same)
  · apply List.Vector.eq
    apply List.map_injective_iff.mpr _ commitments
    intro cm other same
    cases cm
    cases other
    exact congrArg Commitment.mk (bytes same)
  · apply List.Vector.eq
    apply List.map_injective_iff.mpr _ ciphertexts
    intro e other same
    cases e
    cases other
    exact congrArg EncryptedOutput.mk same

end TxV1

/-- The bytes fed to the hash determine the parts, whatever their number. -/
theorem partsQuery_input_inj (context : String) {left right : List (List UInt8)}
    (leftFits : Bytes.Framable left) (rightFits : Bytes.Framable right) :
    (partsQuery context left).input = (partsQuery context right).input ↔ left = right :=
  Bytes.frame_inj leftFits rightFits

/-- The hashed bytes determine the parts; equal binding digests therefore come from equal
bodies, or the two queries collide. -/
theorem binding_digest_binds [Blake3] :
    (∀ context, Set.InjOn (fun parts => (partsQuery context parts).input)
      {parts | Bytes.Framable parts}) ∧
    ∀ left right : TxV1, left.MachineSized → right.MachineSized →
      left.bindingDigest = right.bindingDigest →
      SameBody left right ∨
        left.bindingQuery ≠ right.bindingQuery ∧
          digest left.bindingQuery = digest right.bindingQuery := by
  constructor
  · intro context parts fits parts' fits' same
    exact (partsQuery_input_inj context fits fits').mp same
  · intro left right leftSized rightSized equal
    by_cases same : left.bindingQuery = right.bindingQuery
    · have parts := (partsQuery_input_inj ds.txBinding (TxV1.framable_bindingParts leftSized)
        (TxV1.framable_bindingParts rightSized)).mp (congrArg Query.input same)
      exact .inl (TxV1.sameBody_of_bindingParts leftSized.height rightSized.height parts)
    · have digests : digest left.bindingQuery = digest right.bindingQuery := by
        rw [TxV1.digest_bindingQuery, TxV1.digest_bindingQuery, equal]
      exact .inr ⟨same, digests⟩

section Samples

open Reference

theorem machineSized_wireTx : wireTx.MachineSized where
  height := by decide
  encOutputs := by
    intro e member
    have same : e = ⟨List.replicate encOutputLen 7⟩ := List.eq_of_mem_replicate member
    rw [same, List.length_replicate]
    decide

/-- A transaction and its twin with another proof have one digest and one body. -/
theorem binding_digest_binds_sample :
    SameBody wireTx { wireTx with proof := [] } ∨
      wireTx.bindingQuery ≠ TxV1.bindingQuery { wireTx with proof := [] } ∧
        digest wireTx.bindingQuery = digest (TxV1.bindingQuery { wireTx with proof := [] }) :=
  binding_digest_binds.2 wireTx { wireTx with proof := [] } machineSized_wireTx
    ⟨machineSized_wireTx.height, machineSized_wireTx.encOutputs⟩ rfl

end Samples

end ShieldedLedger
