import ShieldedLedger.General.Bytes
import Mathlib.Data.Nat.Size

/-!
# Byte strings as big-endian numbers

The number a byte string spells when its first byte is the most significant one,
and its width in bits.
-/

namespace Bytes

/-- The number whose big-endian bytes are given. -/
def ofBigEndian : List UInt8 → ℕ
  | [] => 0
  | byte :: rest => byte.toNat * 2 ^ (8 * rest.length) + ofBigEndian rest

theorem ofBigEndian_lt (bytes : List UInt8) : ofBigEndian bytes < 2 ^ (8 * bytes.length) := by
  induction bytes with
  | nil => simp [ofBigEndian]
  | cons byte rest ih =>
      have byteLt : byte.toNat + 1 ≤ 2 ^ 8 := byte.toNat_lt
      have room := Nat.mul_le_mul_right (2 ^ (8 * rest.length)) byteLt
      rw [Nat.add_mul, ← pow_add] at room
      rw [ofBigEndian, List.length_cons, Nat.mul_succ, Nat.add_comm (8 * rest.length)]
      omega

/-- Bits behind a nonzero number widen it by their count, whatever they are. -/
theorem size_mul_two_pow_add {high low width : ℕ} (positive : 0 < high) (fits : low < 2 ^ width) :
    (high * 2 ^ width + low).size = high.size + width := by
  apply le_antisymm
  · rw [Nat.size_le, pow_add]
    have highLt : high + 1 ≤ 2 ^ high.size := high.lt_size_self
    have room := Nat.mul_le_mul_right (2 ^ width) highLt
    rw [Nat.add_mul] at room
    omega
  · obtain ⟨top, sized⟩ : ∃ top, high.size = top + 1 :=
      Nat.exists_eq_succ_of_ne_zero (Nat.size_pos.mpr positive).ne'
    have topLe : 2 ^ top ≤ high := Nat.lt_size.mp (by omega)
    have widthLe := Nat.mul_le_mul_right (2 ^ width) topLe
    rw [← pow_add] at widthLe
    have wide : top + width < (high * 2 ^ width + low).size := Nat.lt_size.mpr (by omega)
    omega

end Bytes
