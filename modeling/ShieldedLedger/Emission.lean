import ShieldedLedger.Primitives

/-!
# Issuance schedule and reward distribution

Emission decays from `e0` to a perpetual tail with linear interpolation inside
each half-life, in fixed point.  The `u128` intermediates never exceed their
width, so they are natural numbers; the `u64` subtraction of the tail wraps.
-/

namespace ShieldedLedger

def scale : ℕ := 2 ^ 32

/-- Schedule parameters; the constructor rejects a zero half-life. -/
structure EmissionParams where
  e0 : UInt64
  eTail : UInt64
  halfLife : UInt64
  halfLife_pos : 0 < halfLife.toNat
  deriving DecidableEq

namespace EmissionParams

/-- `EmissionParams::new`; `none` when the assertion fails. -/
def new (e0 eTail halfLife : UInt64) : Option EmissionParams :=
  if positive : 0 < halfLife.toNat then some ⟨e0, eTail, halfLife, positive⟩ else none

/-- Fixed-point `2 ^ (-height / halfLife)`, in units of `1 / scale`. -/
def decayFactor (params : EmissionParams) (height : ℕ) : ℕ :=
  let q := height / params.halfLife.toNat
  let r := height % params.halfLife.toNat
  if q ≥ 64 then 0
  else
    let halvings := scale >>> q
    let drop := halvings * r / (2 * params.halfLife.toNat)
    halvings - drop

/-- Total emission minted at a checkpoint. -/
def emissionAt (params : EmissionParams) (height : ℕ) : UInt64 :=
  let span := (params.e0 - params.eTail).toNat
  let decayed := span * params.decayFactor height / scale
  params.eTail + UInt64.ofNat decayed

end EmissionParams

/-- One validator's reward at a checkpoint. -/
structure RewardShare where
  validatorIndex : UInt32
  amount : UInt64
  deriving DecidableEq

/-- Hand the remainder out one unit at a time, starting at index `i`. -/
def handOut : (remainder : ℕ) → (i : ℕ) → List RewardShare → List RewardShare
  | 0, _, shares => shares
  | remainder + 1, i, shares =>
      handOut remainder ((i + 1) % shares.length)
        (shares.modify i fun share => { share with amount := share.amount + 1 })

/-- The proportional share of one validator, rounded down. -/
def floorShare (total : UInt64) (weightSum : ℕ) (i : ℕ) (weight : UInt64) : RewardShare where
  validatorIndex := UInt32.ofNat i
  amount := UInt64.ofNat (total.toNat * weight.toNat / weightSum)

/-- Split `total` in proportion to the weights; the rounding remainder goes to
the lowest indices. -/
def distribute (total : UInt64) (weights : List UInt64) : List RewardShare :=
  let weightSum := (weights.map UInt64.toNat).sum
  if weightSum = 0 ∨ weights = [] then []
  else
    let shares := weights.mapIdx (floorShare total weightSum)
    let distributed := shares.foldl (fun sum share => sum + share.amount) 0
    handOut (total - distributed).toNat 0 shares

/-- Reward descriptor for a checkpoint. -/
structure RewardDescriptor where
  height : ℕ
  total : UInt64
  shares : List RewardShare
  deriving DecidableEq

def rewardDescriptor (params : EmissionParams) (height : ℕ) (validatorWeights : List UInt64) :
    RewardDescriptor :=
  let total := params.emissionAt height
  ⟨height, total, distribute total validatorWeights⟩

/-- Handing out the remainder moves amounts only. -/
theorem map_validatorIndex_handOut (remainder i : ℕ) (shares : List RewardShare) :
    (handOut remainder i shares).map RewardShare.validatorIndex =
      shares.map RewardShare.validatorIndex := by
  induction remainder generalizing i shares with
  | zero => rfl
  | succ remainder ih =>
      rw [handOut, ih]
      apply List.ext_getElem?
      intro position
      simp only [List.getElem?_map, List.getElem?_modify]
      split <;> cases shares[position]? <;> rfl

/-- Shares come in index order, one for each validator, or there are none. -/
theorem map_validatorIndex_distribute (total : UInt64) (weights : List UInt64) :
    distribute total weights = [] ∨
      (distribute total weights).map RewardShare.validatorIndex =
        (List.range weights.length).map UInt32.ofNat := by
  unfold distribute
  simp only
  split
  · exact .inl rfl
  · right
    rw [map_validatorIndex_handOut]
    apply List.ext_getElem?
    intro position
    simp only [List.getElem?_map, List.getElem?_mapIdx]
    rcases lt_or_ge position weights.length with inside | outside
    · simp [floorShare, inside]
    · simp [outside]

/-- Every share names an existing validator. -/
theorem validatorIndex_lt_of_mem_distribute {total : UInt64} {weights : List UInt64}
    {share : RewardShare} (member : share ∈ distribute total weights) :
    share.validatorIndex.toNat < weights.length := by
  rcases map_validatorIndex_distribute total weights with empty | indices
  · rw [empty] at member
    cases member
  · have mapped := List.mem_map_of_mem (f := RewardShare.validatorIndex) member
    rw [indices] at mapped
    obtain ⟨position, inside, equal⟩ := List.mem_map.mp mapped
    rw [← equal]
    refine lt_of_le_of_lt ?_ (List.mem_range.mp inside)
    rw [UInt32.toNat_ofNat']
    exact Nat.mod_le _ _

end ShieldedLedger
