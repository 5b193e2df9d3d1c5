import ShieldedLedger.General.Checked
import ShieldedLedger.General.Largest
import ShieldedLedger.ProverDev.Statement
import ShieldedLedger.Wallet

/-!
# Input selection

A transfer spends at most two notes.  The selection prefers the least single note that
suffices and otherwise tries the two largest, so it finds a covering choice whenever
there is one, and the change it leaves is never negative.
-/

namespace ShieldedLedger

/-- Exact value of some records. -/
def recordSum (records : List NoteRecord) : ℕ := valueSum (records.map NoteRecord.note)

theorem recordSum_eq (records : List NoteRecord) :
    recordSum records = (records.map fun record => record.note.value.toNat).sum := by
  rw [recordSum, valueSum, List.map_map]
  rfl

theorem recordSum_singleton (record : NoteRecord) :
    recordSum [record] = record.note.value.toNat := by
  simp [recordSum_eq]

/-- A sum that fits is computed exactly. -/
theorem toNat_sumValues {records : List NoteRecord} (fits : recordSum records < 2 ^ 64) :
    (sumValues records).toNat = recordSum records := by
  rw [recordSum_eq] at fits ⊢
  exact Checked.toNat_total (fun record => record.note.value) records fits

namespace Wallet

/-- What a selection for an amount promises. -/
structure Selects (wallet : Wallet) (amount : UInt64) (selected : List NoteRecord) : Prop where
  distinct : selected.Subperm wallet.unspent
  few : selected.length ≤ txInputs
  covers : amount.toNat ≤ recordSum selected
  least : wallet.unspent ≠ [] → (∃ record ∈ wallet.unspent, amount ≤ record.note.value) →
    ∃ best, selected = [best] ∧
      ∀ record ∈ wallet.unspent, amount ≤ record.note.value →
        best.note.value ≤ record.note.value
  change : Checked.sub (sumValues selected) amount = some (sumValues selected - amount)

variable (self : Wallet) (amount : UInt64)

/-- Some choice of as many unspent records as a transfer has inputs is worth the amount. -/
def Coverable : Prop :=
  ∃ chosen : List NoteRecord, chosen.Subperm self.unspent ∧ chosen.length ≤ txInputs ∧
    amount.toNat ≤ recordSum chosen

/-- The unspent records, largest first. -/
def largestFirst : List NoteRecord :=
  self.unspent.insertionSort fun left right => right.note.value ≤ left.note.value

theorem perm_largestFirst : self.largestFirst.Perm self.unspent := List.perm_insertionSort ..

theorem pairwise_largestFirst :
    self.largestFirst.Pairwise fun left right =>
      right.note.value.toNat ≤ left.note.value.toNat := by
  have total : Std.Total fun left right : NoteRecord => right.note.value ≤ left.note.value :=
    ⟨fun _ _ => UInt64.le_total ..⟩
  have trans : IsTrans NoteRecord fun left right => right.note.value ≤ left.note.value :=
    ⟨fun _ _ _ upper lower => UInt64.le_trans lower upper⟩
  apply (List.pairwise_insertionSort _ self.unspent).imp
  intro left right ordered
  exact UInt64.le_iff_toNat_le.mp ordered

variable {self amount}

/-- A choice of the unspent records is worth at most all of them. -/
theorem recordSum_le_of_subperm {chosen : List NoteRecord} (choice : chosen.Subperm self.unspent) :
    recordSum chosen ≤ recordSum self.unspent := by
  rw [recordSum_eq, recordSum_eq]
  exact Largest.sum_le_of_subperm choice

/-- The two largest records are the best choice of two. -/
theorem recordSum_le_largest {chosen : List NoteRecord} (choice : chosen.Subperm self.unspent)
    (few : chosen.length ≤ txInputs) :
    recordSum chosen ≤ recordSum (self.largestFirst.take txInputs) := by
  rw [recordSum_eq, recordSum_eq]
  exact Largest.sum_le_of_few self.pairwise_largestFirst self.perm_largestFirst choice few

theorem subperm_take_largestFirst (count : ℕ) :
    (self.largestFirst.take count).Subperm self.unspent :=
  (List.take_sublist ..).subperm.trans self.perm_largestFirst.subperm

/-- An amount is coverable exactly when the two largest records cover it. -/
theorem coverable_iff_largest :
    self.Coverable amount ↔ amount.toNat ≤ recordSum (self.largestFirst.take txInputs) := by
  constructor
  · intro ⟨chosen, choice, few, covers⟩
    exact covers.trans (recordSum_le_largest choice few)
  · intro covers
    exact ⟨_, subperm_take_largestFirst txInputs, List.length_take_le _ _, covers⟩

section Fits

variable (fits : recordSum self.unspent < 2 ^ 64)
include fits

theorem toNat_balance : self.balance.toNat = recordSum self.unspent := toNat_sumValues fits

theorem selectInputs_of_short (short : recordSum self.unspent < amount.toNat) :
    self.selectInputs amount = .error (.insufficientFunds self.balance amount) := by
  have less : self.balance < amount := by
    rw [UInt64.lt_iff_toNat_lt, toNat_balance fits]
    exact short
  rw [selectInputs]
  exact if_pos less

/-- A covered selection leaves a change that is not negative. -/
theorem checked_change {selected : List NoteRecord} (distinct : selected.Subperm self.unspent)
    (covers : amount.toNat ≤ recordSum selected) :
    Checked.sub (sumValues selected) amount = some (sumValues selected - amount) := by
  apply Checked.sub_of_le
  rw [toNat_sumValues ((recordSum_le_of_subperm distinct).trans_lt fits)]
  exact covers

/-- A sufficient record is returned alone, the least one. -/
theorem selectInputs_of_single (enough : amount.toNat ≤ recordSum self.unspent)
    (sufficient : ∃ record ∈ self.unspent, amount ≤ record.note.value) :
    ∃ best, self.selectInputs amount = .ok [best] ∧ best ∈ self.unspent ∧
      amount ≤ best.note.value ∧
      ∀ record ∈ self.unspent, amount ≤ record.note.value →
        best.note.value ≤ record.note.value := by
  have funded : ¬self.balance < amount := by
    rw [UInt64.lt_iff_toNat_lt, toNat_balance fits]
    exact Nat.not_lt.mpr enough
  set able := self.unspent.filter fun r => decide (r.note.value ≥ amount) with ableEq
  have mem_able (record : NoteRecord) :
      record ∈ able ↔ record ∈ self.unspent ∧ amount ≤ record.note.value := by
    rw [ableEq, List.mem_filter, decide_eq_true_eq]
  cases found : able.argmin fun r => r.note.value.toNat with
  | none =>
      obtain ⟨record, member, covers⟩ := sufficient
      rw [List.argmin_eq_none] at found
      have listed := (mem_able record).mpr ⟨member, covers⟩
      rw [found] at listed
      cases listed
  | some best =>
      have chosen := (mem_able best).mp (List.argmin_mem found)
      refine ⟨best, ?_, chosen.1, chosen.2, ?_⟩
      · rw [selectInputs]
        simp only [if_neg funded, ← ableEq, found]
      · intro record member covers
        have least := List.le_of_mem_argmin (f := fun r : NoteRecord => r.note.value.toNat)
          ((mem_able record).mpr ⟨member, covers⟩) found
        exact UInt64.le_iff_toNat_le.mpr least

/-- Otherwise the two largest records are tried. -/
theorem selectInputs_of_pair (enough : amount.toNat ≤ recordSum self.unspent)
    (insufficient : ∀ record ∈ self.unspent, ¬amount ≤ record.note.value) :
    self.selectInputs amount =
      if recordSum (self.largestFirst.take txInputs) < amount.toNat
      then .error .tooManyInputsNeeded else .ok (self.largestFirst.take txInputs) := by
  have funded : ¬self.balance < amount := by
    rw [UInt64.lt_iff_toNat_lt, toNat_balance fits]
    exact Nat.not_lt.mpr enough
  have empty : (self.unspent.filter fun r => decide (r.note.value ≥ amount)) = [] := by
    rw [List.filter_eq_nil_iff]
    intro record member
    rw [decide_eq_true_eq]
    exact insufficient record member
  have value : (sumValues (self.largestFirst.take txInputs)).toNat =
      recordSum (self.largestFirst.take txInputs) :=
    toNat_sumValues ((recordSum_le_of_subperm (subperm_take_largestFirst _)).trans_lt fits)
  have less : sumValues (self.largestFirst.take txInputs) < amount ↔
      recordSum (self.largestFirst.take txInputs) < amount.toNat := by
    rw [UInt64.lt_iff_toNat_lt, value]
  rw [selectInputs]
  simp only [if_neg funded, empty, List.argmin_nil]
  exact if_congr less rfl rfl

/-- The selection by the exact values: too little, a coverable amount, or neither. -/
theorem selectInputs_cases (amount : UInt64) :
    (recordSum self.unspent < amount.toNat ∧
      self.selectInputs amount = .error (.insufficientFunds self.balance amount)) ∨
    (∃ selected, self.selectInputs amount = .ok selected ∧ self.Selects amount selected) ∨
    (amount.toNat ≤ recordSum self.unspent ∧ ¬self.Coverable amount ∧
      self.selectInputs amount = .error .tooManyInputsNeeded) := by
  cases Nat.lt_or_ge (recordSum self.unspent) amount.toNat with
  | inl short => exact .inl ⟨short, selectInputs_of_short fits short⟩
  | inr enough =>
      right
      by_cases sufficient : ∃ record ∈ self.unspent, amount ≤ record.note.value
      · obtain ⟨best, chosen, member, covers, least⟩ :=
          selectInputs_of_single fits enough sufficient
        have distinct : [best].Subperm self.unspent := List.singleton_subperm_iff.mpr member
        have worth : amount.toNat ≤ recordSum [best] := by
          rw [recordSum_singleton]
          exact UInt64.le_iff_toNat_le.mp covers
        exact .inl ⟨[best], chosen, distinct, Nat.le_succ _, worth,
          fun _ _ => ⟨best, rfl, least⟩, checked_change fits distinct worth⟩
      · have insufficient : ∀ record ∈ self.unspent, ¬amount ≤ record.note.value := by
          intro record member covers
          exact sufficient ⟨record, member, covers⟩
        have paired := selectInputs_of_pair fits enough insufficient
        split at paired
        · next low =>
          refine .inr ⟨enough, ?_, paired⟩
          rw [coverable_iff_largest]
          exact Nat.not_le.mpr low
        · next high =>
          have distinct : (self.largestFirst.take txInputs).Subperm self.unspent :=
            subperm_take_largestFirst txInputs
          have worth := Nat.not_lt.mp high
          exact .inl ⟨_, paired, distinct, List.length_take_le _ _, worth,
            fun _ some => absurd some sufficient, checked_change fits distinct worth⟩

end Fits

/-- A selection covers the amount, so the amount is coverable and the funds suffice. -/
theorem Selects.coverable {selected : List NoteRecord} (selects : self.Selects amount selected) :
    self.Coverable amount :=
  ⟨selected, selects.distinct, selects.few, selects.covers⟩

theorem Coverable.le_recordSum (coverable : self.Coverable amount) :
    amount.toNat ≤ recordSum self.unspent := by
  obtain ⟨chosen, choice, _, covers⟩ := coverable
  exact covers.trans (recordSum_le_of_subperm choice)

/-- Input selection is sound and complete: it finds a covering choice whenever there is
one, the least single record when one suffices, and otherwise says why there is none. -/
theorem selectInputs_complete (self : Wallet) (fits : recordSum self.unspent < 2 ^ 64)
    (amount : UInt64) :
    ((∃ selected, self.selectInputs amount = .ok selected) ↔ self.Coverable amount) ∧
      (∀ selected, self.selectInputs amount = .ok selected → self.Selects amount selected) ∧
      (self.selectInputs amount = .error (.insufficientFunds self.balance amount) ↔
        recordSum self.unspent < amount.toNat) ∧
      (self.selectInputs amount = .error .tooManyInputsNeeded ↔
        amount.toNat ≤ recordSum self.unspent ∧ ¬self.Coverable amount) := by
  rcases selectInputs_cases fits amount with
    ⟨short, outcome⟩ | ⟨selected, outcome, selects⟩ | ⟨enough, beyond, outcome⟩
  · have uncoverable : ¬self.Coverable amount :=
      fun coverable => absurd coverable.le_recordSum (Nat.not_le.mpr short)
    simp [outcome, short, uncoverable]
  · have coverable := selects.coverable
    have enough := coverable.le_recordSum
    simp [outcome, selects, coverable, enough]
  · simp [outcome, enough, beyond]

end Wallet

section Samples

/-- A wallet of five, three and three units, holding one note at two positions. -/
def threeNotes : Wallet where
  sk := sampleKey
  unspent := [5, 3, 3].mapIdx fun i value => ⟨{ sampleNote with value }, i⟩
  seenNullifiers := ∅

/-- Eight units are covered by two notes, nine by none. -/
theorem selectInputs_complete_sample :
    ((∃ selected, threeNotes.selectInputs 8 = .ok selected) ↔ threeNotes.Coverable 8) ∧
      (threeNotes.selectInputs 9 = .error .tooManyInputsNeeded ↔
        (9 : UInt64).toNat ≤ recordSum threeNotes.unspent ∧ ¬threeNotes.Coverable 9) :=
  ⟨(Wallet.selectInputs_complete threeNotes (by decide) 8).1,
    (Wallet.selectInputs_complete threeNotes (by decide) 9).2.2.2⟩

end Samples

end ShieldedLedger
