import ShieldedLedger.State.Checkpoint

/-!
# Supply audit

The supply grows share by share, while the audit recomputes it from the
schedule.  Both agree as long as some validator has a positive weight.  A
ledger without weight distributes nothing, and its audit fails at the first
checkpoint with a positive emission.
-/

namespace ShieldedLedger

/-- Exact emission of the checkpoints up to a height. -/
def EmissionParams.emittedUpTo (params : EmissionParams) (height : ℕ) : ℕ :=
  ((List.range' 1 height).map fun h => (params.emissionAt h).toNat).sum

/-- Exact value of a genesis allocation. -/
def genesisTotal (genesisNotes : List (Commitment × UInt64)) : ℕ :=
  (genesisNotes.map fun entry => entry.2.toNat).sum

/-- Some validator has a share in the rewards. -/
def Weighted (validators : List ValidatorInfo) : Prop := ∃ v ∈ validators, v.weight ≠ 0

theorem EmissionParams.emittedUpTo_succ (params : EmissionParams) (height : ℕ) :
    params.emittedUpTo (height + 1) =
      params.emittedUpTo height + (params.emissionAt (height + 1)).toNat := by
  rw [emittedUpTo, List.range'_1_concat, Nat.add_comm 1 height]
  simp [emittedUpTo]

theorem EmissionParams.emittedUpTo_mono (params : EmissionParams) {low high : ℕ}
    (ordered : low ≤ high) : params.emittedUpTo low ≤ params.emittedUpTo high := by
  induction ordered with
  | refl => exact le_refl _
  | step _ ih =>
      rw [emittedUpTo_succ]
      exact ih.trans (Nat.le_add_right _ _)

theorem weighted_iff (validators : List ValidatorInfo) :
    Weighted validators ↔
      0 < ((validators.map ValidatorInfo.weight).map UInt64.toNat).sum := by
  rw [Nat.pos_iff_ne_zero, ne_eq, List.sum_eq_zero_iff]
  simp [Weighted, ← UInt64.toNat_inj]

/-- Exact amount the rewards of a height pay out. -/
def paidAt (emission : EmissionParams) (validators : List ValidatorInfo) (height : ℕ) : ℕ :=
  shareSum (rewardDescriptor emission height (validators.map ValidatorInfo.weight)).shares

theorem paidAt_of_weighted (emission : EmissionParams) {validators : List ValidatorInfo}
    (weighted : Weighted validators) (height : ℕ) :
    paidAt emission validators height = (emission.emissionAt height).toNat :=
  shareSum_distribute _ ((weighted_iff validators).mp weighted)

/-- Without weight no validator has a share. -/
theorem distribute_of_not_weighted (total : UInt64) {validators : List ValidatorInfo}
    (unweighted : ¬Weighted validators) :
    distribute total (validators.map ValidatorInfo.weight) = [] := by
  apply distribute_of_no_weight
  rwa [weighted_iff, Nat.not_lt, Nat.le_zero] at unweighted

theorem paidAt_of_not_weighted (emission : EmissionParams) {validators : List ValidatorInfo}
    (unweighted : ¬Weighted validators) (height : ℕ) :
    paidAt emission validators height = 0 := by
  rw [paidAt, rewardDescriptor, distribute_of_not_weighted _ unweighted]
  rfl

/-- No checkpoint pays more than its emission. -/
theorem paidAt_le (emission : EmissionParams) (validators : List ValidatorInfo) (height : ℕ) :
    paidAt emission validators height ≤ (emission.emissionAt height).toNat := by
  by_cases weighted : Weighted validators
  · exact (paidAt_of_weighted emission weighted height).le
  · rw [paidAt_of_not_weighted emission weighted height]
    exact Nat.zero_le _

/-- Exact amount the rewards pay out up to a height. -/
def paidUpTo (emission : EmissionParams) (validators : List ValidatorInfo) (height : ℕ) : ℕ :=
  ((List.range' 1 height).map (paidAt emission validators)).sum

theorem paidUpTo_succ (emission : EmissionParams) (validators : List ValidatorInfo)
    (height : ℕ) : paidUpTo emission validators (height + 1) =
      paidUpTo emission validators height + paidAt emission validators (height + 1) := by
  rw [paidUpTo, List.range'_1_concat, Nat.add_comm 1 height]
  simp [paidUpTo]

theorem paidUpTo_le (emission : EmissionParams) (validators : List ValidatorInfo)
    (height : ℕ) : paidUpTo emission validators height ≤ emission.emittedUpTo height := by
  induction height with
  | zero => exact le_refl _
  | succ height ih =>
      rw [paidUpTo_succ, EmissionParams.emittedUpTo_succ]
      exact Nat.add_le_add ih (paidAt_le emission validators _)

theorem paidUpTo_of_weighted (emission : EmissionParams) {validators : List ValidatorInfo}
    (weighted : Weighted validators) (height : ℕ) :
    paidUpTo emission validators height = emission.emittedUpTo height := by
  have same : paidAt emission validators = fun h => (emission.emissionAt h).toNat := by
    funext h
    exact paidAt_of_weighted emission weighted h
  rw [paidUpTo, same, EmissionParams.emittedUpTo]

theorem paidUpTo_of_not_weighted (emission : EmissionParams) {validators : List ValidatorInfo}
    (unweighted : ¬Weighted validators) (height : ℕ) :
    paidUpTo emission validators height = 0 := by
  have same : paidAt emission validators = fun _ => 0 := by
    funext h
    exact paidAt_of_not_weighted emission unweighted h
  rw [paidUpTo, same]
  simp

theorem paidUpTo_mono (emission : EmissionParams) (validators : List ValidatorInfo)
    {low high : ℕ} (ordered : low ≤ high) :
    paidUpTo emission validators low ≤ paidUpTo emission validators high := by
  induction ordered with
  | refl => exact le_refl _
  | step _ ih =>
      rw [paidUpTo_succ]
      exact ih.trans (Nat.le_add_right _ _)

/-- What has been paid is what has been emitted, up to each height, exactly when there
is weight or nothing to emit. -/
theorem paidUpTo_eq_iff (emission : EmissionParams) (validators : List ValidatorInfo)
    (count : ℕ) :
    (∀ height ≤ count, paidUpTo emission validators height = emission.emittedUpTo height) ↔
      Weighted validators ∨ emission.emittedUpTo count = 0 := by
  by_cases weighted : Weighted validators
  · simp only [weighted, true_or, iff_true]
    intro height _
    exact paidUpTo_of_weighted emission weighted height
  · have nothing := paidUpTo_of_not_weighted emission weighted
    simp only [weighted, false_or, nothing]
    constructor
    · exact fun audited => (audited count le_rfl).symm
    · intro zero height below
      have bound := emission.emittedUpTo_mono below
      omega

section Audit

variable [Blake3]

namespace Ledger

/-- The ledger after some checkpoints of a run, as far as the supply is concerned. -/
structure Funded (emission : EmissionParams) (validators : List ValidatorInfo) (initial : ℕ)
    (ledger : Ledger) : Prop where
  emission_eq : ledger.emission = emission
  validators_eq : ledger.validators = validators
  supply : ledger.supply.toNat = initial + paidUpTo emission validators ledger.height

variable {emission : EmissionParams} {validators : List ValidatorInfo} {initial : ℕ}

omit [Blake3] in
/-- The next checkpoint pays what is scheduled for its height. -/
theorem Funded.shareSum_nextRewards {self : Ledger}
    (funded : Funded emission validators initial self) :
    shareSum self.nextRewards.shares = paidAt emission validators (self.height + 1) := by
  rw [nextRewards, funded.emission_eq, funded.validators_eq]
  rfl

theorem funded_applyCheckpoint {self : Ledger} (funded : Funded emission validators initial self)
    (verifier : SpendVerifier) (batch : List TxV1)
    (fits : initial + emission.emittedUpTo (self.height + 1) < 2 ^ 64) :
    Funded emission validators initial (self.applyCheckpoint verifier batch).1 := by
  have rewards := funded.shareSum_nextRewards
  have paid := paidUpTo_succ emission validators self.height
  have within := paidUpTo_le emission validators (self.height + 1)
  have supply := funded.supply
  constructor
  · rw [applyCheckpoint_emission, funded.emission_eq]
  · rw [applyCheckpoint_validators, funded.validators_eq]
  · rw [self.toNat_supply_applyCheckpoint verifier batch (by omega), applyCheckpoint_height]
    omega

theorem funded_genesis (emission : EmissionParams) (validators : List ValidatorInfo)
    (difficultyBits : ℕ) (genesisNotes : List (Commitment × UInt64))
    (fits : genesisTotal genesisNotes < 2 ^ 64) :
    Funded emission validators (genesisTotal genesisNotes)
      (genesis emission validators difficultyBits genesisNotes) := by
  rw [genesis_eq]
  exact ⟨rfl, rfl, Checked.toNat_total Prod.snd genesisNotes fits⟩

/-- Every state of a run whose sums fit is funded, at the height of its checkpoints. -/
theorem funded_run (verifier : SpendVerifier) (batches : List (List TxV1)) :
    ∀ {self : Ledger}, Funded emission validators initial self →
      initial + emission.emittedUpTo (self.height + batches.length) < 2 ^ 64 →
      Funded emission validators initial (self.run verifier batches).1 ∧
        (self.run verifier batches).1.height = self.height + batches.length := by
  induction batches with
  | nil => exact fun funded _ => ⟨funded, rfl⟩
  | cons batch rest ih =>
      intro self funded fits
      rw [List.length_cons] at fits
      have now := emission.emittedUpTo_mono
        (show self.height + 1 ≤ self.height + (rest.length + 1) by omega)
      have next := funded_applyCheckpoint funded verifier batch (by omega)
      have later := ih next (by
        rw [applyCheckpoint_height]
        rwa [Nat.add_assoc, Nat.add_comm 1])
      rw [applyCheckpoint_height] at later
      refine ⟨later.1, later.2.trans ?_⟩
      rw [List.length_cons]
      omega

/-- Every state of a run from genesis whose sums fit is funded, at the height of its
checkpoints. -/
theorem funded_take (validators : List ValidatorInfo) (difficultyBits : ℕ)
    {genesisNotes : List (Commitment × UInt64)} (verifier : SpendVerifier)
    {batches : List (List TxV1)}
    (fits : genesisTotal genesisNotes + emission.emittedUpTo batches.length < 2 ^ 64) {count : ℕ}
    (below : count ≤ batches.length) :
    let ledger := ((genesis emission validators difficultyBits genesisNotes).run verifier
      (batches.take count)).1
    Funded emission validators (genesisTotal genesisNotes) ledger ∧ ledger.height = count := by
  have start := funded_genesis emission validators difficultyBits genesisNotes (by omega)
  have height : (genesis emission validators difficultyBits genesisNotes).height = 0 := rfl
  have fitsNow : genesisTotal genesisNotes + emission.emittedUpTo count < 2 ^ 64 :=
    lt_of_le_of_lt (Nat.add_le_add_left (emission.emittedUpTo_mono below) _) fits
  obtain ⟨funded, reached⟩ := funded_run verifier (batches.take count) start (by
    rwa [height, Nat.zero_add, List.length_take_of_le below])
  rw [height, Nat.zero_add, List.length_take_of_le below] at reached
  exact ⟨funded, reached⟩

omit [Blake3] in
/-- The audit compares the supply with the emission, when the sums fit. -/
theorem auditSupply_iff {self : Ledger} (funded : Funded emission validators initial self)
    {genesisSupply : UInt64} (allocated : genesisSupply.toNat = initial)
    (fits : initial + emission.emittedUpTo self.height < 2 ^ 64) :
    self.auditSupply genesisSupply = true ↔
      self.supply.toNat = initial + emission.emittedUpTo self.height := by
  have emitted : emission.emittedUpTo self.height < 2 ^ 64 := by omega
  have minted : ((List.range' 1 self.height).foldl
      (fun minted height => minted + emission.emissionAt height) 0).toNat =
        emission.emittedUpTo self.height :=
    Checked.toNat_total emission.emissionAt (List.range' 1 self.height) emitted
  rw [auditSupply, funded.emission_eq, beq_iff_eq, ← UInt64.toNat_inj, UInt64.toNat_add,
    allocated, minted, Nat.mod_eq_of_lt fits]

end Ledger

/-- The supply audit is true in every state of a run, and the supply is the genesis
total plus the emission of every height reached, exactly when some validator has a
positive weight or the run emits nothing at all. -/
theorem audit_supply_iff (emission : EmissionParams) (validators : List ValidatorInfo)
    (difficultyBits : ℕ) (genesisNotes : List (Commitment × UInt64)) (verifier : SpendVerifier)
    (batches : List (List TxV1))
    (fits : genesisTotal genesisNotes + emission.emittedUpTo batches.length < 2 ^ 64) :
    let genesis := Ledger.genesis emission validators difficultyBits genesisNotes
    (∀ count ≤ batches.length,
      let ledger := (genesis.run verifier (batches.take count)).1
      ledger.auditSupply genesis.totalSupply = true ∧
      ledger.totalSupply.toNat = genesisTotal genesisNotes + emission.emittedUpTo count) ↔
    Weighted validators ∨ emission.emittedUpTo batches.length = 0 := by
  intro genesis
  have start := Ledger.funded_genesis emission validators difficultyBits genesisNotes (by omega)
  have allocated : genesis.totalSupply.toNat = genesisTotal genesisNotes := start.supply
  rw [← paidUpTo_eq_iff]
  apply forall₂_congr
  intro count below
  obtain ⟨funded, reached⟩ := Ledger.funded_take validators difficultyBits verifier fits below
  have fitsNow : genesisTotal genesisNotes + emission.emittedUpTo count < 2 ^ 64 :=
    lt_of_le_of_lt (Nat.add_le_add_left (emission.emittedUpTo_mono below) _) fits
  have audit := Ledger.auditSupply_iff funded allocated (by rwa [reached])
  have supply := funded.supply
  rw [reached] at audit supply
  constructor
  · intro audited
    exact Nat.add_left_cancel (supply.symm.trans audited.2)
  · intro same
    rw [same] at supply
    exact ⟨audit.mpr supply, supply⟩

end Audit

section Samples

open Reference

/-- The sample validator has a positive weight, so the audit holds after a checkpoint. -/
theorem audit_supply_iff_sample :
    (sampleLedger.run devVerifier [[]]).1.auditSupply sampleLedger.totalSupply = true := by
  have weighted : Weighted sampleValidators :=
    ⟨_, List.mem_singleton_self _, by decide⟩
  have fits : genesisTotal ([sampleNote].map fun note => (note.commitment, note.value)) +
      sampleEmission.emittedUpTo [([] : List TxV1)].length < 2 ^ 64 := by decide
  have audited := (audit_supply_iff sampleEmission sampleValidators 0
    ([sampleNote].map fun note => (note.commitment, note.value)) devVerifier [[]] fits).mpr
      (.inl weighted) 1 (le_refl _)
  exact audited.1

/-- The only validator has weight zero: the checkpoint emits but mints nothing, and the
audit fails. -/
theorem audit_fails_without_weight :
    ¬∀ (_ : Blake3) (emission : EmissionParams) (validators : List ValidatorInfo)
      (difficultyBits : ℕ) (genesisNotes : List (Commitment × UInt64)) (verifier : SpendVerifier)
      (batches : List (List TxV1)), emission.eTail ≤ emission.e0 →
      genesisTotal genesisNotes + emission.emittedUpTo batches.length < 2 ^ 64 →
      ((Ledger.genesis emission validators difficultyBits genesisNotes).run verifier
        batches).1.auditSupply
          (Ledger.genesis emission validators difficultyBits genesisNotes).totalSupply = true := by
  intro claim
  have audited := claim Reference.blake3 sampleEmission [⟨0, Bytes.filled 32 0xAB⟩] 0 []
    devVerifier [[]] (by decide) (by decide)
  exact absurd audited (by decide +kernel)

end Samples

end ShieldedLedger
