import ShieldedLedger.Primitives
import Mathlib.Data.Nat.ModEq

/-!
# A reference hash

A multiplicative hash to evaluate the development's definitions with.  It stands
for no particular hash function; every general theorem is about all of them.
-/

namespace ShieldedLedger

namespace Reference

/-- A prime just below `2 ^ 256`. -/
def modulus : ℕ := 2 ^ 256 - 189

/-- The multiplier of a context. -/
def multiplier (context : String) : ℕ :=
  context.toList.foldl (fun acc char => acc * 1000003 + char.toNat) 1

/-- Read the input as a number, multiply it and print the residue. -/
scoped instance blake3 : Blake3 where
  deriveKey context input :=
    ⟨Bytes.littleEndian 32 ((Bytes.ofLittleEndian input + 1) * multiplier context % modulus),
      by simp⟩

/-- Inputs of one context and one length below 32 bytes do not collide when the multiplier
is invertible. -/
theorem collisionFree_of_short {queries : Set Query} {context : String} {size : ℕ}
    (invertible : Nat.gcd modulus (multiplier context) = 1) (short : size < 32)
    (shaped : ∀ query ∈ queries, query.context = context ∧ query.input.length = size) :
    CollisionFree queries := by
  have bounded {query : Query} (member : query ∈ queries) :
      Bytes.ofLittleEndian query.input + 1 < modulus := by
    have below := Bytes.ofLittleEndian_lt query.input
    rw [(shaped query member).2] at below
    have room : 256 ^ size ≤ 256 ^ 31 :=
      Nat.pow_le_pow_right (by decide) (Nat.le_of_lt_succ short)
    have gap : 256 ^ 31 + 1 < modulus := by decide
    omega
  have residue (value : ℕ) : value % modulus < 256 ^ 32 :=
    (Nat.mod_lt _ (by decide)).trans (by decide)
  intro left leftMem right rightMem equal
  obtain ⟨leftContext, leftLength⟩ := shaped left leftMem
  obtain ⟨rightContext, rightLength⟩ := shaped right rightMem
  have printed := congrArg List.Vector.toList equal
  simp only [digest, Blake3.deriveKey, List.Vector.toList_mk, leftContext, rightContext]
    at printed
  have products := (Bytes.littleEndian_inj (residue _) (residue _)).mp printed
  have factors := Nat.ModEq.cancel_right_of_coprime invertible products
  have values := Nat.ModEq.eq_of_lt_of_lt factors (bounded leftMem) (bounded rightMem)
  have inputs : left.input = right.input := by
    rw [← Bytes.littleEndian_ofLittleEndian left.input, leftLength, Nat.succ.inj values,
      ← rightLength, Bytes.littleEndian_ofLittleEndian]
  cases left
  cases right
  rw [Query.mk.injEq]
  exact ⟨leftContext.trans rightContext.symm, inputs⟩

end Reference

end ShieldedLedger
