import Mathlib.Algebra.BigOperators.Group.List.Basic
import Mathlib.Tactic.NormNum

/-!
# Checked machine arithmetic

Machine operations that have a result exactly when it is the integer one, as in a
build that stops at an overflow.  A chain of checked additions succeeds exactly when
the whole sum fits: no intermediate total is larger than the last.
-/

namespace Checked

/-- `u64` addition; `none` where it overflows. -/
def add (a b : UInt64) : Option UInt64 :=
  if a.toNat + b.toNat < 2 ^ 64 then some (a + b) else none

/-- `u64` subtraction; `none` where it underflows. -/
def sub (a b : UInt64) : Option UInt64 :=
  if b.toNat ≤ a.toNat then some (a - b) else none

/-- A result in `u128`; `none` where it overflows. -/
def wide (value : ℕ) : Option ℕ :=
  if value < 2 ^ 128 then some value else none

/-- `u128` subtraction; `none` where it underflows. -/
def wideSub (a b : ℕ) : Option ℕ :=
  if b ≤ a then some (a - b) else none

/-- A cast from `u128` to `u64`; `none` where it loses bits. -/
def narrow (value : ℕ) : Option UInt64 :=
  if value < 2 ^ 64 then some (UInt64.ofNat value) else none

/-- A running `u64` total; `none` where one of its additions overflows. -/
def sum (start : UInt64) : List UInt64 → Option UInt64
  | [] => some start
  | amount :: rest => (add start amount).bind fun total => sum total rest

theorem add_of_lt {a b : UInt64} (fits : a.toNat + b.toNat < 2 ^ 64) : add a b = some (a + b) :=
  if_pos fits

theorem sub_of_le {a b : UInt64} (ordered : b.toNat ≤ a.toNat) : sub a b = some (a - b) :=
  if_pos ordered

theorem sub_of_lt {a b : UInt64} (short : a.toNat < b.toNat) : sub a b = none :=
  if_neg (Nat.not_le.mpr short)

theorem wide_of_lt {value : ℕ} (fits : value < 2 ^ 128) : wide value = some value :=
  if_pos fits

theorem wideSub_of_le {a b : ℕ} (ordered : b ≤ a) : wideSub a b = some (a - b) :=
  if_pos ordered

theorem narrow_of_lt {value : ℕ} (fits : value < 2 ^ 64) :
    narrow value = some (UInt64.ofNat value) :=
  if_pos fits

section Totals

variable {α : Type} (value : α → UInt64)

/-- A total that fits is the machine total. -/
theorem sum_of_lt (items : List α) {start : UInt64}
    (fits : start.toNat + (items.map fun item => (value item).toNat).sum < 2 ^ 64) :
    sum start (items.map value) =
      some (items.foldl (fun total item => total + value item) start) := by
  induction items generalizing start with
  | nil => rfl
  | cons item rest ih =>
      rw [List.map_cons, List.sum_cons] at fits
      have room : start.toNat + (value item).toNat < 2 ^ 64 := by omega
      have added : (start + value item).toNat = start.toNat + (value item).toNat := by
        rw [UInt64.toNat_add, Nat.mod_eq_of_lt room]
      have later : (start + value item).toNat +
          (rest.map fun item => (value item).toNat).sum < 2 ^ 64 := by
        rw [added]
        omega
      rw [List.map_cons, sum, add_of_lt room, Option.bind_some, ih later, List.foldl_cons]

/-- A computed total is exact. -/
theorem toNat_of_sum {items : List α} {start total : UInt64}
    (computed : sum start (items.map value) = some total) :
    total.toNat = start.toNat + (items.map fun item => (value item).toNat).sum := by
  induction items generalizing start with
  | nil =>
      cases computed
      simp
  | cons item rest ih =>
      rw [List.map_cons, sum, add] at computed
      split at computed
      · next room =>
        rw [ih computed, UInt64.toNat_add, Nat.mod_eq_of_lt room, List.map_cons, List.sum_cons,
          Nat.add_assoc]
      · cases computed

/-- The machine total is exact when it fits. -/
theorem toNat_foldl_add (items : List α) {start : UInt64}
    (fits : start.toNat + (items.map fun item => (value item).toNat).sum < 2 ^ 64) :
    (items.foldl (fun total item => total + value item) start).toNat =
      start.toNat + (items.map fun item => (value item).toNat).sum :=
  toNat_of_sum value (sum_of_lt value items fits)

/-! Totals that start at zero. -/

theorem total_of_lt (items : List α)
    (fits : (items.map fun item => (value item).toNat).sum < 2 ^ 64) :
    sum 0 (items.map value) = some (items.foldl (fun total item => total + value item) 0) := by
  apply sum_of_lt
  rwa [UInt64.toNat_zero, Nat.zero_add]

theorem toNat_of_total {items : List α} {total : UInt64}
    (computed : sum 0 (items.map value) = some total) :
    total.toNat = (items.map fun item => (value item).toNat).sum := by
  rw [toNat_of_sum value computed, UInt64.toNat_zero, Nat.zero_add]

theorem toNat_total (items : List α)
    (fits : (items.map fun item => (value item).toNat).sum < 2 ^ 64) :
    (items.foldl (fun total item => total + value item) 0).toNat =
      (items.map fun item => (value item).toNat).sum :=
  toNat_of_total value (total_of_lt value items fits)

end Totals

end Checked
