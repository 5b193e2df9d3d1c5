import ShieldedLedger.AntispamQuota.Field
import ShieldedLedger.General.Checked

/-!
# Powers and inverses of words

The square-and-multiply loop with its operations checked: every product is taken in
`u128` and every residue is cast to `u64`.  No operation overflows, whatever the
words are, and the results are the reduced power and the inverse.
-/

namespace ShieldedLedger

namespace field

/-- The residue of a product, where neither the product nor the cast loses a bit. -/
def checkedMul (a b : UInt64) : Option UInt64 :=
  (Checked.wide (a.toNat * b.toNat)).bind fun product => Checked.narrow (product % P)

/-- The loop with checked operations; `none` also where it has turns left to take. -/
def checkedPowLoop : (bits : ℕ) → (acc base exp : UInt64) → Option UInt64
  | 0, acc, _, exp => if exp > 0 then none else some acc
  | bits + 1, acc, base, exp =>
      if exp > 0 then do
        let acc ← if exp &&& 1 = 1 then checkedMul acc base else some acc
        let base ← checkedMul base base
        checkedPowLoop bits acc base (exp >>> 1)
      else some acc

def checkedPow (base exp : UInt64) : Option UInt64 :=
  checkedPowLoop 64 1 (UInt64.ofNat (base.toNat % P)) exp

def checkedInv (a : UInt64) : Option UInt64 := checkedPow a (UInt64.ofNat (P - 2))

/-- A product of words fits in `u128`, and a residue in `u64`. -/
theorem checkedMul_eq (a b : UInt64) : checkedMul a b = some (mul a b) := by
  have product : a.toNat * b.toNat < 2 ^ 128 := by
    calc a.toNat * b.toNat < 2 ^ 64 * 2 ^ 64 := Nat.mul_lt_mul'' a.toNat_lt b.toNat_lt
      _ = 2 ^ 128 := by norm_num
  have cast : a.toNat * b.toNat % P < 2 ^ 64 :=
    (Nat.mod_lt _ (by decide)).trans (by decide)
  rw [checkedMul, Checked.wide_of_lt product, Option.bind_some, Checked.narrow_of_lt cast, mul,
    reduce]

/-- The loop is over once the exponent has been shifted out. -/
theorem checkedPowLoop_eq (bits : ℕ) :
    ∀ (acc base exp : UInt64), exp.toNat < 2 ^ bits →
      checkedPowLoop bits acc base exp = some (powLoop bits acc base exp) := by
  induction bits with
  | zero =>
      intro acc base exp fits
      obtain rfl : exp = 0 := UInt64.toNat_inj.mp (Nat.lt_one_iff.mp fits)
      rfl
  | succ bits ih =>
      intro acc base exp fits
      have halfFits := toNat_halved_lt fits
      rw [checkedPowLoop, powLoop]
      split
      · split
        · simp only [checkedMul_eq, Option.bind_eq_bind, Option.bind_some, ih _ _ _ halfFits]
        · simp only [checkedMul_eq, Option.bind_eq_bind, Option.bind_some, ih _ _ _ halfFits]
      · rfl

theorem checkedPow_eq (base exp : UInt64) : checkedPow base exp = some (pow base exp) :=
  checkedPowLoop_eq 64 _ _ _ exp.toNat_lt

/-- A reduced accumulator stays reduced. -/
theorem reduced_powLoop (bits : ℕ) :
    ∀ (acc base exp : UInt64), Reduced acc → Reduced (powLoop bits acc base exp) := by
  induction bits with
  | zero =>
      intro acc base exp reduced
      exact reduced
  | succ bits ih =>
      intro acc base exp reduced
      rw [powLoop]
      split
      · apply ih
        split
        · exact reduced_mul acc base
        · exact reduced
      · exact reduced

theorem reduced_pow (base exp : UInt64) : Reduced (pow base exp) :=
  reduced_powLoop 64 _ _ _ reduced_one

/-- A reduced word is the residue it stands for. -/
theorem Reduced.toNat_eq {word : UInt64} (reduced : Reduced word) {value : ℕ}
    (equal : residue word = (value : ZMod P)) : word.toNat = value % P := by
  rw [residue, ZMod.natCast_eq_natCast_iff, Nat.ModEq, Nat.mod_eq_of_lt reduced] at equal
  exact equal

theorem toNat_pow (base exp : UInt64) :
    (pow base exp).toNat = base.toNat ^ exp.toNat % P := by
  apply (reduced_pow base exp).toNat_eq
  rw [residue_pow, residue, Nat.cast_pow]

theorem mul_inv {a : UInt64} (nonzero : ¬P ∣ a.toNat) : mul a (inv a) = 1 := by
  have unit : residue a ≠ 0 := by
    rwa [residue, Ne, ZMod.natCast_eq_zero_iff]
  apply (reduced_mul a (inv a)).eq_of_residue reduced_one
  rw [residue_mul, residue_inv, mul_inv_cancel₀ unit]
  simp [residue]

/-- The kernel's powers are powers of residues and its inverses are inverses.  No operation
on the way overflows, and every result is reduced. -/
theorem kernel_exact :
    (∀ base exp : UInt64, checkedPow base exp = some (pow base exp) ∧
      (pow base exp).toNat = base.toNat ^ exp.toNat % (2 ^ 61 - 1) ∧
      (pow base exp).toNat < 2 ^ 61 - 1) ∧
    ∀ a : UInt64, ¬2 ^ 61 - 1 ∣ a.toNat →
      checkedInv a = some (inv a) ∧ (inv a).toNat < 2 ^ 61 - 1 ∧
      checkedMul a (inv a) = some (mul a (inv a)) ∧ mul a (inv a) = 1 := by
  constructor
  · intro base exp
    exact ⟨checkedPow_eq base exp, toNat_pow base exp, reduced_pow base exp⟩
  · intro a nonzero
    exact ⟨checkedPow_eq a _, reduced_pow a _, checkedMul_eq a _, mul_inv nonzero⟩

/-- The inverse of a word that is not reduced. -/
theorem kernel_exact_sample : mul (UInt64.ofNat (P + 3)) (inv (UInt64.ofNat (P + 3))) = 1 :=
  (kernel_exact.2 (UInt64.ofNat (P + 3)) (by decide)).2.2.2

end field

end ShieldedLedger
