import Mathlib.Algebra.BigOperators.Group.Finset.Piecewise
import Mathlib.Algebra.Order.BigOperators.Group.Finset

/-!
# Books of accounts

A book holds an amount for every holder.  A payment moves an amount from one holder to
another and is refused when the payer does not have it.
-/

namespace Accounts

variable {ι : Type} [DecidableEq ι]

structure Payment (ι : Type) where
  payer : ι
  payee : ι
  amount : ℕ

/-- What a holder has in the payment of a book that covers it. -/
def paid (book : ι → ℕ) (payment : Payment ι) (holder : ι) : ℕ :=
  book holder - (if holder = payment.payer then payment.amount else 0) +
    if holder = payment.payee then payment.amount else 0

/-- Move the amount if the payer has it. -/
def pay (book : ι → ℕ) (payment : Payment ι) : Option (ι → ℕ) :=
  if payment.amount ≤ book payment.payer then some (paid book payment) else none

def payAll (book : ι → ℕ) (payments : List (Payment ι)) : Option (ι → ℕ) :=
  payments.foldlM pay book

variable {book book' : ι → ℕ}

theorem pay_eq_some_iff {payment : Payment ι} :
    pay book payment = some book' ↔
      payment.amount ≤ book payment.payer ∧ paid book payment = book' := by
  rw [pay]
  split <;> simp_all

/-- Before and after a covered payment, counting the amount where it is missing. -/
theorem paid_add_debit {payment : Payment ι} (covered : payment.amount ≤ book payment.payer)
    (holder : ι) :
    paid book payment holder + (if holder = payment.payer then payment.amount else 0) =
      book holder + if holder = payment.payee then payment.amount else 0 := by
  have debit : (if holder = payment.payer then payment.amount else 0) ≤ book holder := by
    split
    · next same => rwa [same]
    · exact Nat.zero_le _
  rw [paid]
  omega

/-- A payment between members of a group keeps what the group has. -/
theorem sum_pay {group : Finset ι} {payment : Payment ι} (done : pay book payment = some book')
    (payer : payment.payer ∈ group) (payee : payment.payee ∈ group) :
    ∑ holder ∈ group, book' holder = ∑ holder ∈ group, book holder := by
  obtain ⟨covered, rfl⟩ := pay_eq_some_iff.mp done
  have total := Finset.sum_congr (Eq.refl group) fun holder _ => paid_add_debit covered holder
  rw [Finset.sum_add_distrib, Finset.sum_add_distrib, Finset.sum_ite_eq', Finset.sum_ite_eq',
    if_pos payer, if_pos payee] at total
  exact Nat.add_right_cancel total

/-- Payments between members of a group keep what the group has. -/
theorem sum_payAll {group : Finset ι} {payments : List (Payment ι)}
    (members : ∀ payment ∈ payments, payment.payer ∈ group ∧ payment.payee ∈ group)
    (done : payAll book payments = some book') :
    ∑ holder ∈ group, book' holder = ∑ holder ∈ group, book holder := by
  induction payments generalizing book with
  | nil =>
      obtain rfl := Option.some.inj done
      rfl
  | cons payment rest ih =>
      obtain ⟨next, first, later⟩ := Option.bind_eq_some_iff.mp done
      obtain ⟨payer, payee⟩ := members payment (List.mem_cons_self ..)
      rw [ih (fun other member => members other (List.mem_cons_of_mem _ member)) later,
        sum_pay first payer payee]

end Accounts
