import ShieldedLedger.Emission.Fairness
import ShieldedLedger.State.History
import ShieldedLedger.State.Supply

/-!
# Nonces of reward notes

The nonce of a reward note is hashed from its height and from the validator's
index narrowed to a byte, and its seed from that byte raised by 128.  Up to 128
validators keep their own byte and the sum fits; one more overflows it, and 257
share one.
-/

namespace ShieldedLedger

/-- Notes minted in a history, in order. -/
def mintedIn (blocks : List Block) : List Note := blocks.flatMap Block.minted

/-- Heights and index bytes that the nonces of the reward notes are hashed from. -/
def rewardSlots (summaries : List CheckpointSummary) : List (ℕ × UInt8) :=
  summaries.flatMap fun summary =>
    summary.rewards.shares.map fun share => (summary.height, share.validatorIndex.toUInt8)

/-! ## Index bytes -/

/-- An index below 256 is its own byte. -/
theorem toNat_indexByte {i : ℕ} (small : i < 256) : (UInt32.ofNat i).toUInt8.toNat = i := by
  rw [UInt32.toNat_toUInt8, UInt32.toNat_ofNat']
  omega

/-- With a positive weight every validator has a share. -/
theorem map_validatorIndex_of_weighted (total : UInt64) {validators : List ValidatorInfo}
    (weighted : Weighted validators) :
    (distribute total (validators.map ValidatorInfo.weight)).map RewardShare.validatorIndex =
      (List.range validators.length).map UInt32.ofNat := by
  have positive := (weighted_iff validators).mp weighted
  have indices := map_validatorIndex_distribute total (validators.map ValidatorInfo.weight)
  rw [List.length_map] at indices
  cases indices with
  | inl empty =>
      have length := congrArg List.length (distribute_eq_handOut total positive)
      rw [empty, length_handOut, List.length_mapIdx, List.length_map, List.length_nil] at length
      rw [empty, ← length]
      rfl
  | inr indices => exact indices

/-- Index bytes of the shares of up to 256 validators are distinct. -/
theorem nodup_indexBytes (total : UInt64) {weights : List UInt64} (few : weights.length ≤ 256) :
    ((distribute total weights).map fun share => share.validatorIndex.toUInt8).Nodup := by
  have narrowed : ((distribute total weights).map fun share => share.validatorIndex.toUInt8) =
      ((distribute total weights).map RewardShare.validatorIndex).map UInt32.toUInt8 := by
    rw [List.map_map]
    rfl
  rw [narrowed]
  cases map_validatorIndex_distribute total weights with
  | inl empty =>
      rw [empty]
      exact List.nodup_nil
  | inr indices =>
      rw [indices, List.map_map]
      apply List.Nodup.map_on _ List.nodup_range
      intro i iMem j jMem equal
      have values := congrArg UInt8.toNat equal
      rw [Function.comp_apply, Function.comp_apply,
        toNat_indexByte ((List.mem_range.mp iMem).trans_le few),
        toNat_indexByte ((List.mem_range.mp jMem).trans_le few)] at values
      exact values

/-! ## Slots of a run -/

/-- Slots of the shares that the schedule distributes at some heights. -/
def scheduledSlots (emission : EmissionParams) (validators : List ValidatorInfo)
    (heights : List ℕ) : List (ℕ × UInt8) :=
  heights.flatMap fun height =>
    (distribute (emission.emissionAt height) (validators.map ValidatorInfo.weight)).map
      fun share => (height, share.validatorIndex.toUInt8)

/-- Slots of different heights differ, and those of one height by their index byte. -/
theorem nodup_scheduledSlots (emission : EmissionParams) {validators : List ValidatorInfo}
    (few : validators.length ≤ 256) (start count : ℕ) :
    (scheduledSlots emission validators (List.range' start count)).Nodup := by
  have narrow : (validators.map ValidatorInfo.weight).length ≤ 256 := by rwa [List.length_map]
  rw [scheduledSlots, List.nodup_flatMap]
  constructor
  · intro height _
    have bytes := (nodup_indexBytes (emission.emissionAt height) narrow).map
      (Prod.mk_right_injective height)
    rw [List.map_map] at bytes
    exact bytes
  · apply List.Pairwise.imp _ List.nodup_range'
    intro height height' apart slot slotMem slotMem'
    obtain ⟨_, _, rfl⟩ := List.mem_map.mp slotMem
    obtain ⟨_, _, equal⟩ := List.mem_map.mp slotMem'
    exact apart (Prod.mk.inj equal).1.symm

/-- Slots carry scheduled heights. -/
theorem height_of_mem_scheduledSlots {emission : EmissionParams}
    {validators : List ValidatorInfo} {heights : List ℕ} {slot : ℕ × UInt8}
    (member : slot ∈ scheduledSlots emission validators heights) : slot.1 ∈ heights := by
  obtain ⟨height, heightMem, shared⟩ := List.mem_flatMap.mp member
  obtain ⟨_, _, rfl⟩ := List.mem_map.mp shared
  exact heightMem

/-- Without weight there are no slots. -/
theorem scheduledSlots_of_not_weighted (emission : EmissionParams)
    {validators : List ValidatorInfo} (unweighted : ¬Weighted validators) (heights : List ℕ) :
    scheduledSlots emission validators heights = [] := by
  rw [scheduledSlots, List.flatMap_eq_nil_iff]
  intro height _
  rw [distribute_of_not_weighted _ unweighted, List.map_nil]

/-- The offset fits in a byte for every slot exactly when no validator beyond the 128th is
given a share. -/
theorem no_overflow_iff (emission : EmissionParams) (validators : List ValidatorInfo)
    (heights : List ℕ) :
    (∀ slot ∈ scheduledSlots emission validators heights, 128 + slot.2.toNat < 2 ^ 8) ↔
      validators.length ≤ 128 ∨ ¬Weighted validators ∨ heights = [] := by
  constructor
  · intro fits
    by_contra other
    simp only [not_or, not_not, Nat.not_le] at other
    obtain ⟨many, weighted, nonempty⟩ := other
    obtain ⟨height, rest, rfl⟩ := List.exists_cons_of_ne_nil nonempty
    have indices := map_validatorIndex_of_weighted (emission.emissionAt height) weighted
    have named : UInt32.ofNat 128 ∈ (distribute (emission.emissionAt height)
        (validators.map ValidatorInfo.weight)).map RewardShare.validatorIndex := by
      rw [indices]
      exact List.mem_map_of_mem (List.mem_range.mpr many)
    obtain ⟨share, shareMem, indexEq⟩ := List.mem_map.mp named
    have slotMem : (height, share.validatorIndex.toUInt8) ∈
        scheduledSlots emission validators (height :: rest) :=
      List.mem_flatMap.mpr ⟨height, List.mem_cons_self .., List.mem_map_of_mem shareMem⟩
    have small := fits _ slotMem
    rw [indexEq] at small
    have overflows : ¬128 + (UInt32.ofNat 128).toUInt8.toNat < 2 ^ 8 := by decide
    exact overflows small
  · intro within slot member
    rcases within with few | unweighted | rfl
    · obtain ⟨height, _, shared⟩ := List.mem_flatMap.mp member
      obtain ⟨share, shareMem, rfl⟩ := List.mem_map.mp shared
      have below := validatorIndex_lt_of_mem_distribute shareMem
      rw [List.length_map] at below
      change 128 + share.validatorIndex.toUInt8.toNat < 2 ^ 8
      rw [UInt32.toNat_toUInt8]
      omega
    · rw [scheduledSlots_of_not_weighted emission unweighted] at member
      cases member
    · cases member

section Runs

variable [Blake3]

namespace Ledger

/-- The slots of a run are those scheduled for its heights. -/
theorem rewardSlots_run (self : Ledger) (verifier : SpendVerifier) (batches : List (List TxV1)) :
    rewardSlots (self.run verifier batches).2 =
      scheduledSlots self.emission self.validators
        (List.range' (self.height + 1) batches.length) := by
  induction batches generalizing self with
  | nil => rfl
  | cons batch batches ih =>
      have rest := ih (self.applyCheckpoint verifier batch).1
      rw [applyCheckpoint_height, applyCheckpoint_emission, applyCheckpoint_validators] at rest
      rw [List.length_cons, List.range'_succ, scheduledSlots, List.flatMap_cons]
      exact congrArg (_ ++ ·) rest

/-- The slots of a run that started at genesis. -/
theorem rewardSlots_entries (emission : EmissionParams) (validators : List ValidatorInfo)
    (difficultyBits : ℕ) (genesisNotes : List (Commitment × UInt64)) (verifier : SpendVerifier)
    (batches : List (List TxV1)) :
    let start := genesis emission validators difficultyBits genesisNotes
    rewardSlots ((batches.zip (start.run verifier batches).2).map Prod.snd) =
      scheduledSlots emission validators (List.range' 1 batches.length) := by
  intro start
  have summaries : (batches.zip (start.run verifier batches).2).map Prod.snd =
      (start.run verifier batches).2 := List.map_snd_zip (Machine.length_outputs _ _).le
  rw [summaries, rewardSlots_run]
  rfl

end Ledger

/-! ## Uniqueness -/

/-- The hashes taken of the nonces of a history: those of the reward notes, those of the
transfers that spend a first nullifier, and the reward notes' nullifiers under some keys. -/
def nonceQueries (validators : List ValidatorInfo) (keys : List Bytes32)
    (entries : List (List TxV1 × CheckpointSummary)) : List Query :=
  let blocks := blocksOf validators entries
  (rewardSlots (entries.map Prod.snd)).map (fun slot => rhoMintQuery slot.1 slot.2) ++
    (acceptedIn blocks).flatMap (fun tx =>
      (List.range 256).map fun i => rhoTransferQuery tx.nullifiers.head (UInt8.ofNat i)) ++
    (mintedIn blocks).flatMap fun note => keys.map fun nk => nullifierQuery nk note.rho

/-- Minting does not overflow a byte, and all reward notes can be spent: their nonces differ
from each other and from every transfer's, and so do their nullifiers. -/
structure UniqueRewards (validators : List ValidatorInfo) (keys : List Bytes32)
    (entries : List (List TxV1 × CheckpointSummary)) : Prop where
  no_overflow : ∀ slot ∈ rewardSlots (entries.map Prod.snd), 128 + slot.2.toNat < 2 ^ 8
  distinct : ((mintedIn (blocksOf validators entries)).map Note.rho).Nodup
  apart : ∀ note ∈ mintedIn (blocksOf validators entries),
    ∀ tx ∈ acceptedIn (blocksOf validators entries), ∀ i,
      note.rho ≠ rhoTransfer tx.nullifiers.head i
  spendable : (mintedIn (blocksOf validators entries)).Pairwise fun left right =>
    ∀ nk ∈ keys, ∀ nk' ∈ keys, left.nullifier nk ≠ right.nullifier nk'

/-- The nonces of the minted notes, read off the slots. -/
theorem map_rho_mintedIn (validators : List ValidatorInfo)
    (entries : List (List TxV1 × CheckpointSummary)) :
    (mintedIn (blocksOf validators entries)).map Note.rho =
      (rewardSlots (entries.map Prod.snd)).map fun slot => rhoMint slot.1 slot.2 := by
  simp only [mintedIn, blocksOf, rewardSlots, List.flatMap_map, List.map_flatMap, blockOf,
    List.map_map]
  rfl

/-- Distinct slots of word-sized heights make the rewards unique, apart from the overflow. -/
theorem uniqueRewards_of_nodup {validators : List ValidatorInfo} {keys : List Bytes32}
    {entries : List (List TxV1 × CheckpointSummary)}
    (free : CollisionFree {query | query ∈ nonceQueries validators keys entries})
    (fits : ∀ slot ∈ rewardSlots (entries.map Prod.snd), slot.1 < 2 ^ 64)
    (nodup : (rewardSlots (entries.map Prod.snd)).Nodup)
    (no_overflow : ∀ slot ∈ rewardSlots (entries.map Prod.snd), 128 + slot.2.toNat < 2 ^ 8) :
    UniqueRewards validators keys entries := by
  have minted (slot : ℕ × UInt8) (member : slot ∈ rewardSlots (entries.map Prod.snd)) :
      rhoMintQuery slot.1 slot.2 ∈ nonceQueries validators keys entries :=
    List.mem_append_left _ (List.mem_append_left _ (List.mem_map_of_mem member))
  have spent {note : Note} (member : note ∈ mintedIn (blocksOf validators entries)) {nk : Bytes32}
      (known : nk ∈ keys) :
      nullifierQuery nk note.rho ∈ nonceQueries validators keys entries :=
    List.mem_append_right _ (List.mem_flatMap.mpr ⟨note, member, List.mem_map_of_mem known⟩)
  have distinct : ((mintedIn (blocksOf validators entries)).map Note.rho).Nodup := by
    rw [map_rho_mintedIn]
    apply List.Nodup.map_on _ nodup
    intro slot slotMem slot' slotMem' equal
    have parts := parts_eq_of_rhoMint free (minted slot slotMem) (minted slot' slotMem')
      (fits slot slotMem) (fits slot' slotMem') equal
    exact Prod.ext parts.1 parts.2
  constructor
  · exact no_overflow
  · exact distinct
  · intro note noteMem tx txMem i equal
    have rhoMem := List.mem_map_of_mem (f := Note.rho) noteMem
    rw [map_rho_mintedIn] at rhoMem
    obtain ⟨slot, slotMem, rhoEq⟩ := List.mem_map.mp rhoMem
    have asked : rhoTransferQuery tx.nullifiers.head i ∈
        nonceQueries validators keys entries := by
      apply List.mem_append_left
      apply List.mem_append_right
      refine List.mem_flatMap.mpr ⟨tx, txMem, List.mem_map.mpr ⟨i.toNat, ?_, ?_⟩⟩
      · exact List.mem_range.mpr i.toNat_lt
      · rw [UInt8.ofNat_toNat]
    exact free.ne_of_context (minted slot slotMem) asked (by decide : ds.rhoMint ≠ ds.rhoTransfer)
      (rhoEq.trans equal)
  · apply List.Pairwise.imp_of_mem _ (List.pairwise_map.mp distinct)
    intro left right leftMem rightMem different nk known nk' known' equal
    exact different (parts_eq_of_nullifier free (spent leftMem known) (spent rightMem known')
      equal).2

/-- When the rewards of a run are unique: exactly when no validator beyond the 128th is given
a share.  Heights are words of 64 bits. -/
theorem unique_rewards_iff (emission : EmissionParams) (validators : List ValidatorInfo)
    (difficultyBits : ℕ) (genesisNotes : List (Commitment × UInt64)) (verifier : SpendVerifier)
    (batches : List (List TxV1)) (keys : List Bytes32) (counted : batches.length < 2 ^ 64) :
    let start := Ledger.genesis emission validators difficultyBits genesisNotes
    let entries := batches.zip (start.run verifier batches).2
    CollisionFree {query | query ∈ nonceQueries validators keys entries} →
    (UniqueRewards validators keys entries ↔
      validators.length ≤ 128 ∨ ¬Weighted validators ∨ batches = []) := by
  intro start entries free
  have slots : rewardSlots (entries.map Prod.snd) =
      scheduledSlots emission validators (List.range' 1 batches.length) :=
    Ledger.rewardSlots_entries ..
  have condition := no_overflow_iff emission validators (List.range' 1 batches.length)
  rw [← slots, List.range'_eq_nil_iff, List.length_eq_zero_iff] at condition
  rw [← condition]
  constructor
  · intro unique
    exact unique.no_overflow
  · intro no_overflow
    apply uniqueRewards_of_nodup free _ _ no_overflow
    · intro slot member
      rw [slots] at member
      have height := List.mem_range'_1.mp (height_of_mem_scheduledSlots member)
      omega
    · rcases condition.mp no_overflow with few | unweighted | rfl
      · rw [slots]
        exact nodup_scheduledSlots emission (few.trans (by decide)) _ _
      · rw [slots, scheduledSlots_of_not_weighted emission unweighted]
        exact List.nodup_nil
      · exact List.nodup_nil

end Runs

section Samples

open Reference

/-- One validator earns two notes with different nonces and nullifiers. -/
theorem unique_rewards_sample :
    UniqueRewards sampleValidators [Bytes.filled 32 66]
      ([[], []].zip ((Ledger.genesis sampleEmission sampleValidators 0 []).run devVerifier
        [[], []]).2) :=
  (unique_rewards_iff sampleEmission sampleValidators 0 [] devVerifier [[], []]
    [Bytes.filled 32 66] (by decide) (.of_pairwise (by decide +kernel))).mpr (.inl (by decide))

/-- A validator set of equal weights. -/
def equalValidators (count : ℕ) : List ValidatorInfo :=
  List.replicate count ⟨1, Bytes.filled 32 0⟩

theorem shape_rhoMintQuery (height : ℕ) (i : UInt8) :
    (rhoMintQuery height i).context = ds.rhoMint ∧ (rhoMintQuery height i).input.length = 25 := by
  refine ⟨rfl, ?_⟩
  simp [rhoMintQuery, partsQuery]

/-- The nonces of a first checkpoint without transactions do not collide. -/
theorem collisionFree_idle (validators : List ValidatorInfo) (summary : CheckpointSummary) :
    CollisionFree {query | query ∈ nonceQueries validators [] [([], summary)]} := by
  have invertible : Nat.gcd modulus (multiplier ds.rhoMint) = 1 := by decide +kernel
  apply collisionFree_of_short invertible (by decide : 25 < 32)
  intro query member
  have queries : nonceQueries validators [] [([], summary)] =
      (rewardSlots [summary]).map fun slot => rhoMintQuery slot.1 slot.2 := by
    simp [nonceQueries, blocksOf, blockOf, acceptedIn, acceptedTxs]
  rw [Set.mem_ofPred_eq, queries] at member
  obtain ⟨slot, _, rfl⟩ := List.mem_map.mp member
  exact shape_rhoMintQuery slot.1 slot.2

/-- The first checkpoint of 129 validators overflows the offset of the last index. -/
theorem rewards_not_unique :
    ¬∀ (_ : Blake3) (emission : EmissionParams) (validators : List ValidatorInfo)
      (difficultyBits : ℕ) (genesisNotes : List (Commitment × UInt64)) (verifier : SpendVerifier)
      (batches : List (List TxV1)) (keys : List Bytes32)
      (entries : List (List TxV1 × CheckpointSummary)),
      entries = batches.zip
        ((Ledger.genesis emission validators difficultyBits genesisNotes).run verifier batches).2 →
      batches.length < 2 ^ 64 →
      CollisionFree {query | query ∈ nonceQueries validators keys entries} →
      UniqueRewards validators keys entries := by
  intro claim
  have unique := claim Reference.blake3 sampleEmission (equalValidators 129) 0 [] devVerifier [[]]
    [] _ rfl (by decide) (collisionFree_idle _ _)
  have fits := unique.no_overflow
  rw [Ledger.rewardSlots_entries] at fits
  have weighted : Weighted (equalValidators 129) :=
    ⟨⟨1, Bytes.filled 32 0⟩, List.mem_replicate.mpr ⟨by decide, rfl⟩, by decide⟩
  rcases (no_overflow_iff ..).mp fits with few | unweighted | idle
  · rw [equalValidators, List.length_replicate] at few
    exact absurd few (by decide)
  · exact unweighted weighted
  · cases idle

end Samples

end ShieldedLedger
