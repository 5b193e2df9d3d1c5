import ShieldedLedger.Emission
import ShieldedLedger.General.Checked
import ShieldedLedger.General.Halving

/-!
# The emission schedule

The decay factor is an interpolated halving of the scale; the cut after 64 halvings
changes nothing, because the scale has lost its bits long before.  Above the tail the
schedule falls, stays within one unit and one rounding of the exact curve, and is
computed without overflow.  The constructor only rejects a zero half-life, so a tail
above the initial emission underflows at every height.
-/

namespace ShieldedLedger
namespace EmissionParams

variable (params : EmissionParams)

/-- `decay_factor` in a build that stops at an overflow. -/
def checkedDecayFactor (height : ℕ) : Option ℕ :=
  let q := height / params.halfLife.toNat
  let r := height % params.halfLife.toNat
  if q ≥ 64 then some 0
  else do
    let halvings := scale >>> q
    let product ← Checked.wide (halvings * r)
    let width ← Checked.wide (2 * params.halfLife.toNat)
    let drop := product / width
    Checked.wideSub halvings drop

/-- `emission_at` in a build that stops at an overflow. -/
def checkedEmissionAt (height : ℕ) : Option UInt64 := do
  let span ← Checked.sub params.e0 params.eTail
  let factor ← params.checkedDecayFactor height
  let product ← Checked.wide (span.toNat * factor)
  let decayed ← Checked.narrow (product / scale)
  Checked.add params.eTail decayed

/-- The cut after 64 halvings only skips factors that are zero. -/
theorem decayFactor_eq_factor (height : ℕ) :
    params.decayFactor height = Halving.factor scale params.halfLife.toNat height := by
  rw [decayFactor]
  split
  · next late =>
    have small : scale < 2 ^ (height / params.halfLife.toNat) :=
      Nat.pow_lt_pow_right (by decide) (by omega)
    have empty : Halving.step scale params.halfLife.toNat height = 0 := by
      rw [Halving.step, Nat.shiftRight_eq_div_pow]
      exact Nat.div_eq_of_lt small
    rw [Halving.factor, empty, Nat.zero_sub]
  · rfl

theorem decayFactor_le_scale (height : ℕ) : params.decayFactor height ≤ scale := by
  rw [decayFactor_eq_factor]
  exact Halving.factor_le_scale height

theorem decayFactor_antitone : Antitone params.decayFactor := by
  intro low high ordered
  rw [decayFactor_eq_factor, decayFactor_eq_factor]
  exact Halving.factor_antitone params.halfLife_pos ordered

/-- No intermediate value of the decay factor leaves its width. -/
theorem checkedDecayFactor_eq_some (height : ℕ) :
    params.checkedDecayFactor height = some (params.decayFactor height) := by
  have positive := params.halfLife_pos
  have halfLifeLt := params.halfLife.toNat_lt
  rw [checkedDecayFactor, decayFactor]
  split
  · rfl
  · have halvingsLe : scale >>> (height / params.halfLife.toNat) ≤ 2 ^ 32 :=
      @Halving.step_le_scale scale params.halfLife.toNat height
    have remainderLt : height % params.halfLife.toNat < 2 ^ 64 :=
      (Nat.mod_lt _ positive).trans halfLifeLt
    have productLt : scale >>> (height / params.halfLife.toNat) *
        (height % params.halfLife.toNat) < 2 ^ 128 :=
      (Nat.mul_lt_mul_of_le_of_lt halvingsLe remainderLt (by decide)).trans (by decide)
    have widthLt : 2 * params.halfLife.toNat < 2 ^ 128 := by omega
    have dropLe : scale >>> (height / params.halfLife.toNat) * (height % params.halfLife.toNat) /
        (2 * params.halfLife.toNat) ≤ scale >>> (height / params.halfLife.toNat) :=
      Halving.drop_le_step positive height
    simp only [Checked.wide_of_lt productLt, Checked.wide_of_lt widthLt,
      Option.bind_eq_bind, Option.bind_some]
    exact Checked.wideSub_of_le dropLe

/-- What the schedule adds to the tail, rounded down. -/
def decayed (height : ℕ) : ℕ :=
  (params.e0.toNat - params.eTail.toNat) * params.decayFactor height / scale

theorem decayed_le (height : ℕ) :
    params.decayed height ≤ params.e0.toNat - params.eTail.toNat := by
  apply Nat.div_le_of_le_mul
  rw [Nat.mul_comm scale]
  exact Nat.mul_le_mul_left _ (params.decayFactor_le_scale height)

theorem decayed_antitone : Antitone params.decayed := by
  intro low high ordered
  exact Nat.div_le_div_right (Nat.mul_le_mul_left _ (params.decayFactor_antitone ordered))

section Tailed

variable {params} (tailed : params.eTail.toNat ≤ params.e0.toNat)
include tailed

/-- Above the tail no operation of the schedule overflows. -/
theorem checkedEmissionAt_eq_some (height : ℕ) :
    params.checkedEmissionAt height = some (params.emissionAt height) := by
  have e0Lt := params.e0.toNat_lt
  have span : (params.e0 - params.eTail).toNat = params.e0.toNat - params.eTail.toNat :=
    UInt64.toNat_sub_of_le _ _ (UInt64.le_iff_toNat_le.mpr tailed)
  have productLt : (params.e0 - params.eTail).toNat * params.decayFactor height < 2 ^ 128 :=
    calc (params.e0 - params.eTail).toNat * params.decayFactor height
        < 2 ^ 64 * 2 ^ 64 := Nat.mul_lt_mul'' (UInt64.toNat_lt _)
          ((params.decayFactor_le_scale height).trans_lt (by decide))
      _ = 2 ^ 128 := by norm_num
  have decayedLe : (params.e0 - params.eTail).toNat * params.decayFactor height / scale ≤
      params.e0.toNat - params.eTail.toNat := by
    rw [span]
    exact params.decayed_le height
  have decayedLt : (params.e0 - params.eTail).toNat * params.decayFactor height / scale <
      2 ^ 64 := by omega
  have sumLt : params.eTail.toNat + (UInt64.ofNat
      ((params.e0 - params.eTail).toNat * params.decayFactor height / scale)).toNat < 2 ^ 64 := by
    rw [UInt64.toNat_ofNat_of_lt' decayedLt]
    omega
  simp only [checkedEmissionAt, Checked.sub_of_le tailed, checkedDecayFactor_eq_some,
    Checked.wide_of_lt productLt, Checked.narrow_of_lt decayedLt, Option.bind_eq_bind,
    Option.bind_some]
  exact Checked.add_of_lt sumLt

/-- The emission is the tail and the decayed span. -/
theorem toNat_emissionAt (height : ℕ) :
    (params.emissionAt height).toNat = params.eTail.toNat + params.decayed height := by
  have e0Lt := params.e0.toNat_lt
  have bound := params.decayed_le height
  have span : (params.e0 - params.eTail).toNat = params.e0.toNat - params.eTail.toNat :=
    UInt64.toNat_sub_of_le _ _ (UInt64.le_iff_toNat_le.mpr tailed)
  have fits : params.decayed height < 2 ^ 64 := by omega
  have machine : params.emissionAt height =
      params.eTail + UInt64.ofNat (params.decayed height) := by
    rw [emissionAt, span]
    rfl
  rw [machine, UInt64.toNat_add, UInt64.toNat_ofNat_of_lt' fits]
  exact Nat.mod_eq_of_lt (by omega)

theorem eTail_le_emissionAt (height : ℕ) :
    params.eTail.toNat ≤ (params.emissionAt height).toNat := by
  rw [toNat_emissionAt tailed]
  exact Nat.le_add_right _ _

theorem emissionAt_le_e0 (height : ℕ) : (params.emissionAt height).toNat ≤ params.e0.toNat := by
  have bound := params.decayed_le height
  rw [toNat_emissionAt tailed]
  omega

/-- Emission falls from `e0` to the tail, and every operation on the way is exact. -/
theorem emissionAt_monotone_bounded {low high : ℕ} (ordered : low ≤ high) :
    params.eTail.toNat ≤ (params.emissionAt high).toNat ∧
      (params.emissionAt high).toNat ≤ (params.emissionAt low).toNat ∧
      (params.emissionAt low).toNat ≤ params.e0.toNat ∧
      ∀ height, params.checkedEmissionAt height = some (params.emissionAt height) := by
  have falling := params.decayed_antitone ordered
  refine ⟨eTail_le_emissionAt tailed high, ?_, emissionAt_le_e0 tailed low,
    checkedEmissionAt_eq_some tailed⟩
  rw [toNat_emissionAt tailed, toNat_emissionAt tailed]
  exact Nat.add_le_add_left falling _

/-- The emission before it is rounded down, against the exact curve. -/
theorem abs_span_mul_factor_sub_curve_le (height : ℕ) :
    |((params.e0.toNat : ℚ) - params.eTail.toNat) * params.decayFactor height / 2 ^ 32 -
        (params.e0.toNat - params.eTail.toNat) *
          Halving.curve ℚ params.halfLife.toNat height| ≤
      ((params.e0.toNat : ℚ) - params.eTail.toNat) / 2 ^ 32 := by
  have span : (0 : ℚ) ≤ params.e0.toNat - params.eTail.toNat :=
    sub_nonneg.mpr (by exact_mod_cast tailed)
  have close : |(params.decayFactor height : ℚ) -
      2 ^ 32 * Halving.curve ℚ params.halfLife.toNat height| ≤ 1 := by
    rw [decayFactor_eq_factor]
    exact (Halving.abs_factor_sub_curve_lt ℚ 32 params.halfLife_pos height).le
  have scaled : ((params.e0.toNat : ℚ) - params.eTail.toNat) * params.decayFactor height /
        2 ^ 32 - (params.e0.toNat - params.eTail.toNat) *
          Halving.curve ℚ params.halfLife.toNat height =
      (params.e0.toNat - params.eTail.toNat) / 2 ^ 32 *
        (params.decayFactor height - 2 ^ 32 * Halving.curve ℚ params.halfLife.toNat height) := by
    ring
  have weight : (0 : ℚ) ≤ (params.e0.toNat - params.eTail.toNat) / 2 ^ 32 :=
    div_nonneg span (by positivity)
  rw [scaled, abs_mul, abs_of_nonneg weight]
  exact mul_le_of_le_one_right weight close

/-- Rounding down takes off less than one unit. -/
theorem decayed_bounds (height : ℕ) :
    (params.decayed height : ℚ) ≤
        ((params.e0.toNat : ℚ) - params.eTail.toNat) * params.decayFactor height / 2 ^ 32 ∧
      ((params.e0.toNat : ℚ) - params.eTail.toNat) * params.decayFactor height / 2 ^ 32 <
        params.decayed height + 1 := by
  have span : ((params.e0.toNat - params.eTail.toNat : ℕ) : ℚ) =
      params.e0.toNat - params.eTail.toNat := Nat.cast_sub tailed
  set product := (params.e0.toNat - params.eTail.toNat) * params.decayFactor height
    with productEq
  have exactProduct : ((params.e0.toNat : ℚ) - params.eTail.toNat) * params.decayFactor height =
      product := by
    rw [productEq, Nat.cast_mul, span]
  have below : params.decayed height * 2 ^ 32 ≤ product := Nat.div_mul_le_self product (2 ^ 32)
  have above : product < 2 ^ 32 * (params.decayed height + 1) :=
    Nat.lt_mul_div_succ product (by decide)
  rw [exactProduct, le_div_iff₀ (by positivity), div_lt_iff₀ (by positivity)]
  constructor
  · exact_mod_cast below
  · rw [mul_comm]
    exact_mod_cast above

/-- In every period the emission follows the exact piecewise linear curve. -/
theorem emissionAt_accurate (q : ℕ) {r : ℕ} (within : r < params.halfLife.toNat) :
    |((params.emissionAt (q * params.halfLife.toNat + r)).toNat : ℚ) -
        (params.eTail.toNat + (params.e0.toNat - params.eTail.toNat) * (1 / 2) ^ q *
          (1 - r / (2 * params.halfLife.toNat)))| <
      ((params.e0.toNat : ℚ) - params.eTail.toNat) / 2 ^ 32 + 1 := by
  set height := q * params.halfLife.toNat + r with heightEq
  have periods : height / params.halfLife.toNat = q := by
    rw [heightEq, Nat.mul_comm, Nat.mul_add_div params.halfLife_pos, Nat.div_eq_of_lt within,
      Nat.add_zero]
  have rest : height % params.halfLife.toNat = r := by
    rw [heightEq, Nat.mul_add_mod_self_right, Nat.mod_eq_of_lt within]
  have curve : (params.e0.toNat - params.eTail.toNat : ℚ) * (1 / 2) ^ q *
      (1 - r / (2 * params.halfLife.toNat)) =
        (params.e0.toNat - params.eTail.toNat) *
          Halving.curve ℚ params.halfLife.toNat height := by
    rw [Halving.curve, periods, rest, mul_assoc]
  have close := abs_le.mp (abs_span_mul_factor_sub_curve_le tailed height)
  obtain ⟨below, above⟩ := decayed_bounds tailed height
  rw [curve, toNat_emissionAt tailed, Nat.cast_add, abs_lt]
  constructor
  · linarith only [above, close.1]
  · linarith only [below, close.2]

end Tailed

/-- A tail above the initial emission stops the schedule at its first subtraction. -/
theorem checkedEmissionAt_eq_none {params : EmissionParams}
    (inverted : params.e0.toNat < params.eTail.toNat) (height : ℕ) :
    params.checkedEmissionAt height = none := by
  rw [checkedEmissionAt, Checked.sub_of_lt inverted]
  rfl

/-- A constructed schedule is computed exactly, between its two bounds, if and only if
its tail is not above its initial emission. -/
theorem checkedEmissionAt_iff {e0 eTail halfLife : UInt64} {params : EmissionParams}
    (constructed : new e0 eTail halfLife = some params) (height : ℕ) :
    (params.checkedEmissionAt height = some (params.emissionAt height) ∧
      min e0.toNat eTail.toNat ≤ (params.emissionAt height).toNat ∧
      (params.emissionAt height).toNat ≤ max e0.toNat eTail.toNat) ↔
        eTail.toNat ≤ e0.toNat := by
  rw [new] at constructed
  split at constructed
  · next positive =>
    cases constructed
    constructor
    · intro ⟨computed, _⟩
      apply Nat.not_lt.mp
      intro inverted
      rw [checkedEmissionAt_eq_none inverted] at computed
      cases computed
    · intro tailed
      let params : EmissionParams := ⟨e0, eTail, halfLife, positive⟩
      have aboveTail : params.eTail.toNat ≤ params.e0.toNat := tailed
      exact ⟨checkedEmissionAt_eq_some aboveTail height,
        (Nat.min_le_right _ _).trans (eTail_le_emissionAt aboveTail height),
        (emissionAt_le_e0 aboveTail height).trans (Nat.le_max_left _ _)⟩
  · cases constructed

section Samples

/-- The parameters of the demo node. -/
def demoParams : EmissionParams := ⟨10000, 100, 1000, by decide⟩

theorem emissionAt_monotone_bounded_demo :
    demoParams.eTail.toNat ≤ (demoParams.emissionAt 250).toNat ∧
      (demoParams.emissionAt 250).toNat ≤ (demoParams.emissionAt 30).toNat ∧
      (demoParams.emissionAt 30).toNat ≤ demoParams.e0.toNat ∧
      ∀ height, demoParams.checkedEmissionAt height = some (demoParams.emissionAt height) :=
  emissionAt_monotone_bounded (by decide) (by decide)

theorem emissionAt_accurate_demo :
    |((demoParams.emissionAt (2 * demoParams.halfLife.toNat + 50)).toNat : ℚ) -
        (demoParams.eTail.toNat + (demoParams.e0.toNat - demoParams.eTail.toNat) * (1 / 2) ^ 2 *
          (1 - (50 : ℕ) / (2 * demoParams.halfLife.toNat)))| <
      ((demoParams.e0.toNat : ℚ) - demoParams.eTail.toNat) / 2 ^ 32 + 1 :=
  emissionAt_accurate (by decide) 2 (by decide)

theorem checkedEmissionAt_iff_demo :
    (demoParams.checkedEmissionAt 250 = some (demoParams.emissionAt 250) ∧
      min (10000 : UInt64).toNat (100 : UInt64).toNat ≤ (demoParams.emissionAt 250).toNat ∧
      (demoParams.emissionAt 250).toNat ≤
        max (10000 : UInt64).toNat (100 : UInt64).toNat) ↔
          (100 : UInt64).toNat ≤ (10000 : UInt64).toNat := by
  have constructed : new 10000 100 1000 = some demoParams := rfl
  exact checkedEmissionAt_iff constructed 250

/-- A build that wraps mints half of the `u64` range after one period. -/
example : emissionAt ⟨1, 2, 1, by decide⟩ 1 = 9223372036854775809 := by decide

/-- A tail of two above an initial emission of one is accepted, and underflows. -/
theorem inverted_schedule_underflows :
    ¬∀ (e0 eTail halfLife : UInt64) (params : EmissionParams),
      new e0 eTail halfLife = some params → ∀ height < 2 ^ 64,
        params.checkedEmissionAt height = some (params.emissionAt height) ∧
          min e0.toNat eTail.toNat ≤ (params.emissionAt height).toNat ∧
          (params.emissionAt height).toNat ≤ max e0.toNat eTail.toNat := by
  intro claim
  have stopped : checkedEmissionAt ⟨1, 2, 1, by decide⟩ 1 = none := by decide
  have computed := (claim 1 2 1 ⟨1, 2, 1, by decide⟩ rfl 1 (by decide)).1
  rw [stopped] at computed
  cases computed

end Samples

end EmissionParams
end ShieldedLedger
