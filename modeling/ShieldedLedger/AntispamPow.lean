import ShieldedLedger.Interfaces
import Mathlib.Data.Nat.Size

/-!
# Anti-spam proof-of-work lane

A hashcash puzzle bound to the transaction binding digest, with uniform
difficulty.  `solve` searches the nonces in order and, since the nonce wraps,
loops for ever when none of the `2 ^ 64` nonces is a solution.
-/

namespace ShieldedLedger

structure PowSolution where
  nonce : UInt64
  deriving DecidableEq

namespace PowSolution

def toBytes (solution : PowSolution) : Bytes.Array 8 :=
  ⟨leBytes solution.nonce.toNat, length_leBytes _⟩

def fromBytes (b : Bytes.Array 8) : PowSolution where
  nonce := UInt64.ofNat (Bytes.ofLittleEndian b.toList)

end PowSolution

/-- `u8::leading_zeros` -/
def byteLeadingZeros (byte : UInt8) : ℕ := 8 - byte.toNat.size

/-- Count zero bytes, then the zero bits of the first byte that is not zero. -/
def leadingZeroBits : List UInt8 → ℕ
  | [] => 0
  | byte :: rest => if byte = 0 then 8 + leadingZeroBits rest else byteLeadingZeros byte

variable [Blake3]

def powHash (challenge : Bytes32) (nonce : UInt64) : Bytes32 :=
  hashParts ds.pow [challenge.toList, leBytes nonce.toNat]

/-- Verify a solution. -/
def powVerify (challenge : Bytes32) (solution : PowSolution) (difficultyBits : ℕ) : Bool :=
  leadingZeroBits (powHash challenge solution.nonce).toList ≥ difficultyBits

/-- Search at most `tries` nonces from a starting nonce. -/
def solveFrom (challenge : Bytes32) (difficultyBits : ℕ) : (tries : ℕ) → UInt64 → Option PowSolution
  | 0, _ => none
  | tries + 1, nonce =>
      if leadingZeroBits (powHash challenge nonce).toList ≥ difficultyBits then some ⟨nonce⟩
      else solveFrom challenge difficultyBits tries (nonce + 1)

/-- Solve the puzzle for a challenge; `none` when the search never returns. -/
def solve (challenge : Bytes32) (difficultyBits : ℕ) : Option PowSolution :=
  solveFrom challenge difficultyBits (2 ^ 64) 0

/-- Difficulty zero accepts the first nonce. -/
theorem solve_zero (challenge : Bytes32) : solve challenge 0 = some ⟨0⟩ := by
  rw [solve, show (2 : ℕ) ^ 64 = 18446744073709551615 + 1 by norm_num, solveFrom]
  simp

@[simp] theorem powVerify_zero (challenge : Bytes32) (solution : PowSolution) :
    powVerify challenge solution 0 = true := by
  simp [powVerify]

end ShieldedLedger
