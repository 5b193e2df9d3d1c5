import ShieldedLedger.General.Counted
import ShieldedLedger.ProverDev.Statement

/-!
# What a development proof binds

The development proof is a tag over the encoded public inputs.  The encoding has
fixed fields around two runs behind one-byte counts, so it determines the public
inputs as long as no 256 items can change from one run to the other.
-/

namespace ShieldedLedger

namespace SpendPublicInputs

/-- The bytes of the two vectors. -/
def runs (pi : SpendPublicInputs) : List UInt8 :=
  Counted.pair (pi.nullifiers.map Nullifier.bytes) (pi.commitments.map Commitment.bytes)

theorem encode_eq (pi : SpendPublicInputs) :
    pi.encode = leBytes pi.anchor.height ++ (pi.anchor.root.toList ++ (pi.runs ++
      (pi.bindingDigest.toList ++ leBytes pi.mintValue.toNat))) := by
  simp [encode, runs, Counted.pair, Counted.counted, Counted.count, Counted.run,
    List.flatMap_map]

/-- The fixed fields are read back; only the two vectors may be read in another way. -/
theorem encode_eq_iff {pi pi' : SpendPublicInputs} (fits : pi.anchor.height < 2 ^ 64)
    (fits' : pi'.anchor.height < 2 ^ 64) :
    pi'.encode = pi.encode ↔ pi'.anchor = pi.anchor ∧ pi'.runs = pi.runs ∧
      pi'.bindingDigest = pi.bindingDigest ∧ pi'.mintValue = pi.mintValue := by
  constructor
  · intro equal
    rw [encode_eq, encode_eq] at equal
    have heights := List.append_inj equal (by simp)
    have roots := List.append_inj heights.2 (by simp)
    have bodies := List.append_inj' roots.2 (by simp)
    have digests := List.append_inj bodies.2 (by simp)
    exact ⟨Anchor.eq_of_bytes fits' fits heights.1 roots.1, bodies.1,
      List.Vector.eq _ _ digests.1, leBytes_toNat_inj.mp digests.2⟩
  · rintro ⟨anchor, runs, digest, mint⟩
    rw [encode_eq, encode_eq, anchor, runs, digest, mint]

/-- Some multiple of 256 items can change from one vector to the other.  Either the
commitments that leave end in the byte of the commitment count, or the nullifiers that
leave begin with it. -/
def Ambiguous (pi : SpendPublicInputs) : Prop :=
  ∃ wraps, 0 < wraps ∧
    ((∃ cm, pi.commitments[256 * wraps - 1]? = some cm ∧
        cm.bytes.last = UInt8.ofNat pi.commitments.length) ∨
      256 * wraps ≤ pi.nullifiers.length ∧
        ∃ nf, pi.nullifiers[pi.nullifiers.length - 256 * wraps]? = some nf ∧
          nf.bytes.head = UInt8.ofNat pi.commitments.length)

theorem ambiguous_iff (pi : SpendPublicInputs) :
    pi.Ambiguous ↔
      Counted.Movable (pi.nullifiers.map Nullifier.bytes)
        (pi.commitments.map Commitment.bytes) := by
  simp [Ambiguous, Counted.Movable, Counted.count, List.getElem?_map]

/-- Vectors of fewer than 256 entries are never ambiguous. -/
theorem not_ambiguous_of_lt {pi : SpendPublicInputs} (nullifiers : pi.nullifiers.length < 256)
    (commitments : pi.commitments.length < 256) : ¬pi.Ambiguous := by
  rw [ambiguous_iff]
  exact Counted.not_movable_of_lt (by simpa using nullifiers) (by simpa using commitments)

/-- Public inputs are the only ones with their encoding exactly when they are not ambiguous. -/
theorem encode_unique_iff {pi : SpendPublicInputs} (fits : pi.anchor.height < 2 ^ 64) :
    (∀ pi' : SpendPublicInputs, pi'.anchor.height < 2 ^ 64 → pi'.encode = pi.encode → pi' = pi) ↔
      ¬pi.Ambiguous := by
  rw [ambiguous_iff, ← Counted.exists_other_iff]
  constructor
  · rintro unique ⟨nullifiers, commitments, different, equal⟩
    let other : SpendPublicInputs :=
      { pi with
        nullifiers := nullifiers.map Nullifier.mk
        commitments := commitments.map Commitment.mk }
    have same : other.runs = pi.runs := by
      simpa [other, runs, Function.comp_def] using equal
    have otherFits : other.anchor.height < 2 ^ 64 := fits
    have returned := unique other otherFits
      ((encode_eq_iff fits otherFits).mpr ⟨rfl, same, rfl, rfl⟩)
    apply different
    rw [← returned]
    simp [other, Function.comp_def]
  · intro alone pi' fits' equal
    obtain ⟨anchor, runs, digest, mint⟩ := (encode_eq_iff fits fits').mp equal
    by_contra different
    refine alone ⟨_, _, fun same => different ?_, runs⟩
    obtain ⟨nullifiers, commitments⟩ := Prod.mk.inj same
    have nullifiersEq := (List.map_injective_iff.mpr fun _ _ => congrArg Nullifier.mk) nullifiers
    have commitmentsEq := (List.map_injective_iff.mpr fun _ _ => congrArg Commitment.mk) commitments
    calc pi' = ⟨pi'.anchor, pi'.nullifiers, pi'.commitments, pi'.bindingDigest,
            pi'.mintValue⟩ := rfl
      _ = ⟨pi.anchor, pi.nullifiers, pi.commitments, pi.bindingDigest, pi.mintValue⟩ := by
        rw [anchor, nullifiersEq, commitmentsEq, digest, mint]

end SpendPublicInputs

section Tags

variable [Blake3]

/-- The query behind a development tag. -/
def SpendPublicInputs.tagQuery (pi : SpendPublicInputs) : Query :=
  partsQuery ds.devProof [pi.encode]

/-- The development verifier accepts the development proof and nothing else. -/
theorem verify_devVerifier_iff (pi : SpendPublicInputs) (proof : List UInt8) :
    devVerifier.verify pi proof = .ok () ↔ proof = devProof pi := by
  constructor
  · intro accepted
    simp only [devVerifier] at accepted
    split at accepted
    · cases accepted
    rename_i size
    split at accepted
    · cases accepted
    rename_i zeros
    split at accepted
    · rename_i tag
      have rest : proof.drop 32 = List.replicate (proofBucket - 32) 0 := by
        refine List.eq_replicate_iff.mpr ⟨?_, ?_⟩
        · rw [List.length_drop, not_not.mp size]
        · simpa using zeros
      rw [devProof, ← tag, ← rest, List.take_append_drop]
    · cases accepted
  · rintro rfl
    exact verify_devProof pi

/-- Tags of one proof come from one encoding, unless the hash collides on them. -/
theorem encode_eq_of_devProof {pi pi' : SpendPublicInputs}
    (free : CollisionFree {pi.tagQuery, pi'.tagQuery}) (equal : devProof pi' = devProof pi) :
    pi'.encode = pi.encode := by
  have tags : devTag pi' = devTag pi :=
    List.Vector.eq _ _ (List.append_inj equal (by simp)).1
  have queries : pi'.tagQuery = pi.tagQuery := free (by simp) (by simp) tags
  have framed := (Query.mk.inj queries).2
  rw [Bytes.frame_cons, Bytes.frame_cons, Bytes.frame_nil, List.append_nil, List.append_nil]
    at framed
  exact (List.append_inj framed (by simp)).2

/-- Public inputs with one encoding make one query, and share their proof. -/
theorem proof_shared_of_encode {pi pi' : SpendPublicInputs} (equal : pi'.encode = pi.encode) :
    CollisionFree {pi.tagQuery, pi'.tagQuery} ∧
      devVerifier.verify pi (devProof pi) = .ok () ∧
      devVerifier.verify pi' (devProof pi) = .ok () := by
  have queries : pi.tagQuery = pi'.tagQuery :=
    congrArg (fun bytes => partsQuery _ [bytes]) equal.symm
  have proofs : devProof pi = devProof pi' := by
    rw [devProof, devProof, devTag, devTag, equal]
  refine ⟨Set.injOn_pair.mpr fun _ => queries, verify_devProof pi, ?_⟩
  rw [proofs]
  exact verify_devProof pi'

/-- No proof of some public inputs is accepted for others, which do not collide with them in
the hash, exactly when they are not ambiguous; and exactly then no others have their
encoding. -/
theorem proof_bound_iff {pi : SpendPublicInputs} (fits : pi.anchor.height < 2 ^ 64) :
    ((∀ pi' : SpendPublicInputs, pi'.anchor.height < 2 ^ 64 → pi' ≠ pi →
        CollisionFree {pi.tagQuery, pi'.tagQuery} → ∀ proof : List UInt8,
          ¬(devVerifier.verify pi proof = .ok () ∧ devVerifier.verify pi' proof = .ok ())) ↔
      ¬pi.Ambiguous) ∧
    ((∀ pi' : SpendPublicInputs, pi'.anchor.height < 2 ^ 64 → pi'.encode = pi.encode → pi' = pi) ↔
      ¬pi.Ambiguous) := by
  have unique := SpendPublicInputs.encode_unique_iff fits
  refine ⟨?_, unique⟩
  rw [← unique]
  constructor
  · intro bound pi' fits' equal
    by_contra different
    obtain ⟨free, accepted⟩ := proof_shared_of_encode equal
    exact bound pi' fits' different free (devProof pi) accepted
  · rintro alone pi' fits' different free proof ⟨accepted, accepted'⟩
    rw [verify_devVerifier_iff] at accepted accepted'
    exact different (alone pi' fits' (encode_eq_of_devProof free (accepted'.symm.trans accepted)))

end Tags

section Samples

open Reference

/-- The public inputs of the honest spend, and the same with another mint amount: the proof
of the former is not accepted for the latter. -/
theorem proof_bound_sample :
    let pi := transferInputs (sampleSpend sampleKey.nk 0)
    devVerifier.verify { pi with mintValue := 1 } (devProof pi) ≠ .ok () := by
  intro pi accepted
  have short : ¬pi.Ambiguous := SpendPublicInputs.not_ambiguous_of_lt (by decide) (by decide)
  have free : CollisionFree {pi.tagQuery, SpendPublicInputs.tagQuery { pi with mintValue := 1 }} :=
    Set.injOn_pair.mpr fun equal => absurd equal (by decide +kernel)
  exact (proof_bound_iff (by decide)).1.mpr short { pi with mintValue := 1 } (by decide)
    (fun same => absurd (congrArg SpendPublicInputs.mintValue same) (by decide)) free (devProof pi)
    ⟨verify_devProof pi, accepted⟩

/-- Nullifiers of zero bytes and no commitments. -/
def zeroNullifiers : SpendPublicInputs :=
  ⟨⟨0, Bytes.filled 32 1⟩, List.replicate 256 ⟨Bytes.filled 32 0⟩, [], Bytes.filled 32 2, 0⟩

/-- The same number of zero commitments and no nullifiers. -/
def zeroCommitments : SpendPublicInputs :=
  ⟨⟨0, Bytes.filled 32 1⟩, [], List.replicate 256 ⟨Bytes.filled 32 0⟩, Bytes.filled 32 2, 0⟩

/-- A count of 256 is written as zero, so the two samples share their encoding and with it
their proof. -/
theorem proof_not_bound :
    ¬∀ (_ : Blake3) (pi pi' : SpendPublicInputs), pi.anchor.height < 2 ^ 64 →
      pi'.anchor.height < 2 ^ 64 → pi ≠ pi' → CollisionFree {pi.tagQuery, pi'.tagQuery} →
      ∀ proof : List UInt8,
        ¬(devVerifier.verify pi proof = .ok () ∧ devVerifier.verify pi' proof = .ok ()) := by
  intro claim
  have zeros (items : ℕ) : Counted.run (List.replicate items (Bytes.filled 32 0)) =
      List.replicate (items * 32) 0 := by
    rw [Counted.run, List.flatMap_replicate]
    exact List.flatten_replicate_replicate
  have full : Counted.count (List.replicate 256 (Bytes.filled 32 0)) = 0 := by
    rw [Counted.count, List.length_replicate]
    rfl
  have shift (bytes : ℕ) :
      0 :: List.replicate bytes (0 : UInt8) ++ [0] = 0 :: 0 :: List.replicate bytes 0 :=
    congrArg (List.cons 0) List.replicate_succ'.symm
  have runs : zeroNullifiers.runs = zeroCommitments.runs := by
    simp only [SpendPublicInputs.runs, zeroNullifiers, zeroCommitments, List.map_replicate,
      List.map_nil, Counted.pair, Counted.counted, zeros, full]
    exact shift _
  have encodings : zeroNullifiers.encode = zeroCommitments.encode :=
    (SpendPublicInputs.encode_eq_iff (by decide) (by decide)).mpr ⟨rfl, runs, rfl, rfl⟩
  have different : zeroNullifiers ≠ zeroCommitments := fun same =>
    absurd (congrArg SpendPublicInputs.commitments same) (by decide)
  obtain ⟨free, accepted⟩ := proof_shared_of_encode encodings.symm
  exact claim Reference.blake3 zeroNullifiers zeroCommitments (by decide) (by decide) different free
    (devProof zeroNullifiers) accepted

end Samples

end ShieldedLedger
