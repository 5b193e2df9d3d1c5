import ShieldedLedger.AntispamPow
import ShieldedLedger.General.BigEndian
import ShieldedLedger.Reference

/-!
# The work target as a number

The leading zero bits of a hash and the width of the number it spells add up to the
length of the hash.  A difficulty is therefore met exactly by the hashes below a
power of two, and meeting one difficulty meets every lower one.
-/

namespace ShieldedLedger

/-- A byte is as wide as its leading zeros leave room for. -/
theorem byteLeadingZeros_add_size (byte : UInt8) :
    byteLeadingZeros byte + byte.toNat.size = 8 := by
  have narrow : byte.toNat.size ≤ 8 := Nat.size_le.mpr byte.toNat_lt
  rw [byteLeadingZeros]
  omega

theorem leadingZeroBits_add_size (bytes : List UInt8) :
    leadingZeroBits bytes + (Bytes.ofBigEndian bytes).size = 8 * bytes.length := by
  induction bytes with
  | nil => simp [leadingZeroBits, Bytes.ofBigEndian]
  | cons byte rest ih =>
      rw [leadingZeroBits, Bytes.ofBigEndian, List.length_cons]
      split
      · next zero =>
        rw [zero, UInt8.toNat_zero, Nat.zero_mul, Nat.zero_add]
        omega
      · next nonzero =>
        have positive : 0 < byte.toNat :=
          Nat.pos_of_ne_zero fun zero => nonzero (UInt8.toNat_inj.mp zero)
        rw [Bytes.size_mul_two_pow_add positive (Bytes.ofBigEndian_lt rest)]
        have whole := byteLeadingZeros_add_size byte
        omega

/-- A difficulty within the length of the hash is met below the matching power of two. -/
theorem le_leadingZeroBits_iff (bytes : List UInt8) {difficulty : ℕ}
    (within : difficulty ≤ 8 * bytes.length) :
    difficulty ≤ leadingZeroBits bytes ↔
      Bytes.ofBigEndian bytes < 2 ^ (8 * bytes.length - difficulty) := by
  have whole := leadingZeroBits_add_size bytes
  rw [← Nat.size_le]
  omega

section Solving

variable [Blake3]

/-- Whatever nonce the search returns meets the difficulty it searched for. -/
theorem le_leadingZeroBits_of_solveFrom {challenge : Bytes32} {difficultyBits tries : ℕ}
    {solution : PowSolution} : ∀ {nonce : UInt64},
      solveFrom challenge difficultyBits tries nonce = some solution →
        difficultyBits ≤ leadingZeroBits (powHash challenge solution.nonce).toList := by
  induction tries with
  | zero =>
      intro nonce found
      cases found
  | succ tries ih =>
      intro nonce found
      rw [solveFrom] at found
      split at found
      · next met =>
        obtain rfl := Option.some.inj found
        exact met
      · exact ih found

theorem powVerify_iff (challenge : Bytes32) (solution : PowSolution) (difficultyBits : ℕ) :
    powVerify challenge solution difficultyBits = true ↔
      difficultyBits ≤ leadingZeroBits (powHash challenge solution.nonce).toList := by
  simp [powVerify]

/-- A verified solution verifies at every lower difficulty. -/
theorem powVerify_anti {challenge : Bytes32} {solution : PowSolution} {lower difficultyBits : ℕ}
    (easier : lower ≤ difficultyBits)
    (verified : powVerify challenge solution difficultyBits = true) :
    powVerify challenge solution lower = true := by
  rw [powVerify_iff] at verified ⊢
  exact easier.trans verified

/-- A hash has as many leading zero bits as a difficulty asks for exactly when the number it
spells is below the target of that difficulty.  Hence what the search returns verifies at
the difficulty searched for and at every lower one. -/
theorem difficulty_is_target :
    (∀ (h : Bytes32) (difficultyBits : ℕ), difficultyBits ≤ 256 →
      (leadingZeroBits h.toList ≥ difficultyBits ↔
        Bytes.ofBigEndian h.toList < 2 ^ (256 - difficultyBits))) ∧
    ∀ (challenge : Bytes32) (difficultyBits lower : ℕ) (solution : PowSolution),
      solve challenge difficultyBits = some solution → lower ≤ difficultyBits →
        powVerify challenge solution lower = true := by
  constructor
  · intro h difficultyBits within
    have bits : 8 * h.toList.length = 256 := by
      rw [List.Vector.toList_length]
    rw [ge_iff_le, le_leadingZeroBits_iff _ (bits.symm ▸ within), bits]
  · intro challenge difficultyBits lower solution solved easier
    apply powVerify_anti easier
    rw [powVerify_iff]
    exact le_leadingZeroBits_of_solveFrom solved

end Solving

section Samples

open Reference

/-- The search for three bits on a sample challenge passes over the first nonce; what it
returns verifies at two bits. -/
theorem difficulty_is_target_sample : powVerify (Bytes.filled 32 42) ⟨1⟩ 2 = true := by
  have solved : solve (Bytes.filled 32 42) 3 = some ⟨1⟩ := by
    decide +kernel
  exact difficulty_is_target.2 _ 3 2 _ solved (by decide)

end Samples

end ShieldedLedger
