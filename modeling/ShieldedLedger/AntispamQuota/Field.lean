import ShieldedLedger.AntispamQuota
import Mathlib.FieldTheory.Finite.Basic
import Mathlib.NumberTheory.LucasLehmer

/-!
# The field kernel computes in `ZMod P`

Every operation on words is the operation of the prime field on their residues,
and returns a reduced word.
-/

namespace ShieldedLedger

namespace field

theorem prime_P : Nat.Prime P := by
  have mersenne : Nat.Prime (mersenne 61) :=
    lucas_lehmer_sufficiency 61 (by norm_num) (by norm_num)
  exact mersenne

instance : Fact (Nat.Prime P) := ⟨prime_P⟩

/-- Residue of a word. -/
def residue (word : UInt64) : ZMod P := (word.toNat : ZMod P)

/-- A word below the modulus. -/
def Reduced (word : UInt64) : Prop := word.toNat < P

theorem toNat_ofNat_mod (value : ℕ) : (UInt64.ofNat (value % P)).toNat = value % P := by
  refine UInt64.toNat_ofNat_of_lt' (lt_trans (Nat.mod_lt _ (by decide)) ?_)
  decide

theorem reduced_ofNat_mod (value : ℕ) : Reduced (UInt64.ofNat (value % P)) := by
  rw [Reduced, toNat_ofNat_mod]
  exact Nat.mod_lt _ (by decide)

theorem residue_ofNat_mod (value : ℕ) :
    residue (UInt64.ofNat (value % P)) = (value : ZMod P) := by
  rw [residue, toNat_ofNat_mod, ZMod.natCast_mod]

/-- Reduced words are determined by their residues. -/
theorem Reduced.eq_of_residue {left right : UInt64} (leftReduced : Reduced left)
    (rightReduced : Reduced right) (equal : residue left = residue right) : left = right := by
  rw [residue, residue, ZMod.natCast_eq_natCast_iff, Nat.ModEq, Nat.mod_eq_of_lt leftReduced,
    Nat.mod_eq_of_lt rightReduced] at equal
  exact UInt64.toNat_inj.mp equal

@[simp] theorem residue_add (a b : UInt64) : residue (add a b) = residue a + residue b := by
  rw [add, residue_ofNat_mod, Nat.cast_add, residue, residue]

@[simp] theorem residue_mul (a b : UInt64) : residue (mul a b) = residue a * residue b := by
  rw [mul, reduce, residue_ofNat_mod, Nat.cast_mul, residue, residue]

/-- Subtraction is exact as long as the `u128` difference does not wrap. -/
theorem residue_sub {a b : UInt64} (fits : b.toNat ≤ a.toNat + P) :
    residue (sub a b) = residue a - residue b := by
  have bound := a.toNat_lt
  have unwrapped : (a.toNat + P + 2 ^ 128 - b.toNat) % 2 ^ 128 = a.toNat + P - b.toNat := by
    rw [show a.toNat + P + 2 ^ 128 - b.toNat = a.toNat + P - b.toNat + 2 ^ 128 by omega,
      Nat.add_mod_right]
    refine Nat.mod_eq_of_lt ?_
    have : P < 2 ^ 61 := by decide
    omega
  rw [sub, unwrapped, residue_ofNat_mod, Nat.cast_sub fits, Nat.cast_add, ZMod.natCast_self,
    add_zero, residue, residue]

theorem reduced_sub (a b : UInt64) : Reduced (sub a b) := reduced_ofNat_mod _

theorem reduced_add (a b : UInt64) : Reduced (add a b) := reduced_ofNat_mod _

theorem reduced_reduce (value : ℕ) : Reduced (reduce value) := reduced_ofNat_mod _

theorem reduced_mul (a b : UInt64) : Reduced (mul a b) := reduced_reduce _

theorem reduced_one : Reduced 1 := by
  rw [Reduced]
  decide

theorem toNat_halved (exp : UInt64) : (exp >>> 1).toNat = exp.toNat / 2 := by
  simp [UInt64.toNat_shiftRight, Nat.shiftRight_eq_div_pow]

/-- Each round of the loop leaves an exponent with one bit less. -/
theorem toNat_halved_lt {exp : UInt64} {bits : ℕ} (fits : exp.toNat < 2 ^ (bits + 1)) :
    (exp >>> 1).toNat < 2 ^ bits := by
  rw [toNat_halved]
  omega

/-- The loop multiplies the accumulator by the remaining power. -/
theorem residue_powLoop (bits : ℕ) :
    ∀ (acc base exp : UInt64), exp.toNat < 2 ^ bits →
      residue (powLoop bits acc base exp) = residue acc * residue base ^ exp.toNat := by
  induction bits with
  | zero =>
      intro acc base exp fits
      obtain zero : exp.toNat = 0 := by omega
      simp [powLoop, zero]
  | succ bits ih =>
      intro acc base exp fits
      have halfFits := toNat_halved_lt fits
      have parity : exp &&& 1 = 1 ↔ exp.toNat % 2 = 1 := by
        rw [← UInt64.toNat_inj, UInt64.toNat_and]
        simp
      rw [powLoop]
      split
      · rw [ih _ _ _ halfFits, toNat_halved, residue_mul, ← pow_two, ← pow_mul]
        split
        · rename_i odd
          have odd := parity.mp odd
          conv_rhs => rw [show exp.toNat = 1 + 2 * (exp.toNat / 2) by omega]
          rw [residue_mul, pow_add, pow_one, mul_assoc]
        · rename_i even
          have even := mt parity.mpr even
          conv_rhs => rw [show exp.toNat = 2 * (exp.toNat / 2) by omega]
      · rename_i done
        have zero : exp = 0 := by simpa using done
        simp [zero]

theorem residue_pow (base exp : UInt64) :
    residue (pow base exp) = residue base ^ exp.toNat := by
  rw [pow, residue_powLoop 64 1 _ exp exp.toNat_lt, residue_ofNat_mod]
  simp [residue]

/-- The inverse of the field, with the inverse of zero being zero. -/
@[simp] theorem residue_inv (a : UInt64) : residue (inv a) = (residue a)⁻¹ := by
  have exponent : (UInt64.ofNat (P - 2)).toNat = P - 2 := by decide
  rw [inv, residue_pow, exponent]
  by_cases zero : residue a = 0
  · rw [zero, inv_zero, zero_pow (by decide)]
  · refine eq_inv_of_mul_eq_one_left ?_
    rw [← pow_succ]
    exact ZMod.pow_card_sub_one_eq_one zero

end field

end ShieldedLedger
