import ShieldedLedger.State.Supply

/-!
# The supply cap

Neither the allocation nor the schedule is checked against the cap on the supply.  A
run stays under it, and all additions behind the supply and its audit are exact, as
long as the allocation and the scheduled emission together do.
-/

namespace ShieldedLedger

namespace Ledger

/-- `audit_supply` in a build that stops at an overflow. -/
def checkedAudit (self : Ledger) (genesisSupply : UInt64) : Option Bool := do
  let minted ← Checked.sum 0 ((List.range' 1 self.height).map self.emission.emissionAt)
  let expected ← Checked.add genesisSupply minted
  some (self.supply == expected)

/-- The supply after the next checkpoint, in a build that stops at an overflow. -/
def checkedMint (self : Ledger) : Option UInt64 :=
  Checked.sum self.supply (self.nextRewards.shares.map RewardShare.amount)

/-- The audit is exact exactly when the allocation and the emission fit together. -/
theorem checkedAudit_eq_iff (self : Ledger) (genesisSupply : UInt64) :
    self.checkedAudit genesisSupply = some (self.auditSupply genesisSupply) ↔
      genesisSupply.toNat + self.emission.emittedUpTo self.height < 2 ^ 64 := by
  constructor
  · intro audited
    rw [checkedAudit, Option.bind_eq_bind, Option.bind_eq_some_iff] at audited
    obtain ⟨minted, mintedEq, rest⟩ := audited
    rw [Option.bind_eq_some_iff] at rest
    obtain ⟨expected, expectedEq, _⟩ := rest
    have total : minted.toNat = self.emission.emittedUpTo self.height :=
      Checked.toNat_of_total self.emission.emissionAt mintedEq
    rw [Checked.add] at expectedEq
    split at expectedEq
    · next fits => rwa [total] at fits
    · cases expectedEq
  · intro fits
    have emitted : self.emission.emittedUpTo self.height < 2 ^ 64 := by omega
    have minted := Checked.total_of_lt self.emission.emissionAt (List.range' 1 self.height) emitted
    have total : ((List.range' 1 self.height).foldl
        (fun minted height => minted + self.emission.emissionAt height) 0).toNat =
          self.emission.emittedUpTo self.height :=
      Checked.toNat_of_total self.emission.emissionAt minted
    rw [checkedAudit, minted, Option.bind_eq_bind, Option.bind_some, Checked.add_of_lt,
      Option.bind_some, auditSupply]
    rwa [total]

end Ledger

section Runs

variable [Blake3]

namespace Ledger

/-- Shares that fit are minted exactly. -/
theorem checkedMint_eq_some (self : Ledger) (verifier : SpendVerifier) (batch : List TxV1)
    (fits : self.supply.toNat + shareSum self.nextRewards.shares < 2 ^ 64) :
    self.checkedMint = some (self.applyCheckpoint verifier batch).1.totalSupply := by
  rw [totalSupply, applyCheckpoint_supply]
  exact Checked.sum_of_lt RewardShare.amount self.nextRewards.shares fits

/-- A reward note is worth at most what the checkpoint pays. -/
theorem value_le_of_mem_rewardNotes (self : Ledger) {note : Note}
    (member : note ∈ self.rewardNotes) :
    note.value.toNat ≤ shareSum self.nextRewards.shares := by
  obtain ⟨share, shared, rfl⟩ := List.mem_map.mp member
  exact List.le_sum_of_mem (List.mem_map_of_mem shared)

end Ledger

/-- What the cap promises of a run: the supply stays below it, every addition that builds
the supply or its audit is exact, and every note minted is worth less. -/
structure SupplyCapped (genesis : Ledger) (genesisNotes : List (Commitment × UInt64))
    (verifier : SpendVerifier) (batches : List (List TxV1)) : Prop where
  below : ∀ count ≤ batches.length,
    (genesis.run verifier (batches.take count)).1.totalSupply < maxMoney
  allocation : Checked.sum 0 (genesisNotes.map Prod.snd) = some genesis.totalSupply
  minting : ∀ count batch, batches[count]? = some batch →
    let ledger := (genesis.run verifier (batches.take count)).1
    ledger.checkedMint = some (ledger.applyCheckpoint verifier batch).1.totalSupply
  audit : ∀ count ≤ batches.length,
    let ledger := (genesis.run verifier (batches.take count)).1
    ledger.checkedAudit genesis.totalSupply = some (ledger.auditSupply genesis.totalSupply)
  allocated : ∀ entry ∈ genesisNotes, entry.2 < maxMoney
  minted : ∀ count < batches.length,
    ∀ note ∈ (genesis.run verifier (batches.take count)).1.rewardNotes, note.value < maxMoney

section Cap

variable {emission : EmissionParams} {validators : List ValidatorInfo} {difficultyBits : ℕ}
variable {genesisNotes : List (Commitment × UInt64)} {verifier : SpendVerifier}
variable {batches : List (List TxV1)}

/-- A run is capped when its audit fits and what it pays stays below the cap. -/
theorem supplyCapped_of_fits
    (fits : genesisTotal genesisNotes + emission.emittedUpTo batches.length < 2 ^ 64)
    (cap : genesisTotal genesisNotes + paidUpTo emission validators batches.length <
      maxMoney.toNat) :
    SupplyCapped (Ledger.genesis emission validators difficultyBits genesisNotes) genesisNotes
      verifier batches := by
  set genesis := Ledger.genesis emission validators difficultyBits genesisNotes with genesisEq
  have funded (count : ℕ) (below : count ≤ batches.length) :=
    Ledger.funded_take validators difficultyBits verifier fits below
  have capNow (count : ℕ) (below : count ≤ batches.length) : genesisTotal genesisNotes +
      paidUpTo emission validators count < maxMoney.toNat :=
    lt_of_le_of_lt (Nat.add_le_add_left (paidUpTo_mono emission validators below) _) cap
  have allocationFits : genesisTotal genesisNotes < 2 ^ 64 := by omega
  -- what a checkpoint of the run pays fits on top of the supply before it
  have step (count : ℕ) (below : count < batches.length) :
      let ledger := (genesis.run verifier (batches.take count)).1
      ledger.supply.toNat + shareSum ledger.nextRewards.shares < maxMoney.toNat := by
    intro ledger
    obtain ⟨state, height⟩ := funded count below.le
    have next := capNow (count + 1) below
    rw [paidUpTo_succ] at next
    rw [state.supply, state.shareSum_nextRewards, height]
    omega
  constructor
  · intro count below
    obtain ⟨state, height⟩ := funded count below
    rw [UInt64.lt_iff_toNat_lt, Ledger.totalSupply, state.supply, height]
    exact capNow count below
  · rw [Checked.total_of_lt Prod.snd genesisNotes allocationFits, Ledger.totalSupply, genesisEq,
      Ledger.genesis_eq]
  · intro count batch found ledger
    have room := step count (List.getElem?_eq_some_iff.mp found).1
    apply Ledger.checkedMint_eq_some
    exact room.trans maxMoney.toNat_lt
  · intro count below ledger
    obtain ⟨state, height⟩ := funded count below
    have start := Ledger.funded_genesis emission validators difficultyBits genesisNotes
      allocationFits
    have allocated : genesis.totalSupply.toNat = genesisTotal genesisNotes := start.supply
    have later := emission.emittedUpTo_mono below
    rw [Ledger.checkedAudit_eq_iff, allocated, state.emission_eq, height]
    omega
  · intro entry member
    have part : entry.2.toNat ≤ genesisTotal genesisNotes :=
      List.le_sum_of_mem (List.mem_map_of_mem (f := fun entry => entry.2.toNat) member)
    rw [UInt64.lt_iff_toNat_lt]
    omega
  · intro count below note member
    have part := Ledger.value_le_of_mem_rewardNotes _ member
    have room := step count below
    rw [UInt64.lt_iff_toNat_lt]
    exact (part.trans (Nat.le_add_left _ _)).trans_lt room

/-- The supply of a run stays below the cap, with all its sums exact, if and only if the
allocation does, the audit of the last state fits, and, when there is any weight, the
allocation and the scheduled emission stay below the cap together. -/
theorem supply_capped_iff (emission : EmissionParams) (validators : List ValidatorInfo)
    (difficultyBits : ℕ) (genesisNotes : List (Commitment × UInt64)) (verifier : SpendVerifier)
    (batches : List (List TxV1)) :
    SupplyCapped (Ledger.genesis emission validators difficultyBits genesisNotes) genesisNotes
        verifier batches ↔
      genesisTotal genesisNotes < maxMoney.toNat ∧
        genesisTotal genesisNotes + emission.emittedUpTo batches.length < 2 ^ 64 ∧
        (Weighted validators →
          genesisTotal genesisNotes + emission.emittedUpTo batches.length < maxMoney.toNat) := by
  constructor
  · intro capped
    have allocation : (Ledger.genesis emission validators difficultyBits
        genesisNotes).totalSupply.toNat = genesisTotal genesisNotes :=
      Checked.toNat_of_total Prod.snd capped.allocation
    have allocationLt := capped.below 0 (Nat.zero_le _)
    have audited := capped.audit batches.length le_rfl
    rw [List.take_zero] at allocationLt
    rw [Ledger.checkedAudit_eq_iff, Ledger.run_emission, Ledger.run_height, allocation,
      List.take_length] at audited
    replace audited : genesisTotal genesisNotes + emission.emittedUpTo (0 + batches.length) <
        2 ^ 64 := audited
    rw [Nat.zero_add] at audited
    refine ⟨?_, audited, ?_⟩
    · rw [← allocation]
      exact UInt64.lt_iff_toNat_lt.mp allocationLt
    · intro weighted
      obtain ⟨state, height⟩ := Ledger.funded_take validators difficultyBits verifier audited
        (le_refl batches.length)
      have last := UInt64.lt_iff_toNat_lt.mp (capped.below batches.length le_rfl)
      rwa [Ledger.totalSupply, state.supply, height,
        paidUpTo_of_weighted emission weighted] at last
  · intro ⟨allocated, fits, capped⟩
    apply supplyCapped_of_fits fits
    by_cases weighted : Weighted validators
    · rw [paidUpTo_of_weighted emission weighted]
      exact capped weighted
    · rw [paidUpTo_of_not_weighted emission weighted, Nat.add_zero]
      exact allocated

end Cap

end Runs

section Samples

open Reference

/-- An allocation of one note at the cap is accepted, and is already beyond it. -/
theorem allocation_exceeds_cap :
    ¬∀ (_ : Blake3) (emission : EmissionParams) (validators : List ValidatorInfo)
      (difficultyBits : ℕ) (genesisNotes : List (Commitment × UInt64)) (verifier : SpendVerifier)
      (batches : List (List TxV1)),
      ((Ledger.genesis emission validators difficultyBits genesisNotes).run verifier
        batches).1.totalSupply < maxMoney := by
  intro claim
  have below := claim Reference.blake3 sampleEmission sampleValidators 0
    [(⟨Bytes.filled 32 0⟩, 0x4000000000000000)] devVerifier []
  exact absurd below (by decide)

end Samples

end ShieldedLedger
