import ShieldedLedger.Interfaces

/-!
# RLN-style rate-limiting quota lane

A rate proof carries the rate nullifier of one slot of one epoch and one point
of the line `y = a0 + a1 * x` over the field of `2 ^ 61 - 1` elements, taken at
the hash of the message.  The registry keeps the first point seen for each slot
and interpolates two different ones.
-/

namespace ShieldedLedger

/-! ## Field arithmetic

Operands are `u64` words, not necessarily reduced; intermediates are `u128`. -/

namespace field

/-- The Mersenne prime `2 ^ 61 - 1`. -/
def P : ℕ := 2 ^ 61 - 1

def reduce (x : ℕ) : UInt64 := UInt64.ofNat (x % P)

def add (a b : UInt64) : UInt64 := UInt64.ofNat ((a.toNat + b.toNat) % P)

/-- The subtraction happens in `u128` and wraps when `b` exceeds `a + P`. -/
def sub (a b : UInt64) : UInt64 :=
  UInt64.ofNat ((a.toNat + P + 2 ^ 128 - b.toNat) % 2 ^ 128 % P)

def mul (a b : UInt64) : UInt64 := reduce (a.toNat * b.toNat)

/-- Square-and-multiply loop; an exponent of `bits` bits takes `bits` turns. -/
def powLoop : (bits : ℕ) → (acc base exp : UInt64) → UInt64
  | 0, acc, _, _ => acc
  | bits + 1, acc, base, exp =>
      if exp > 0 then
        powLoop bits (if exp &&& 1 = 1 then mul acc base else acc) (mul base base) (exp >>> 1)
      else acc

def pow (base exp : UInt64) : UInt64 := powLoop 64 1 (UInt64.ofNat (base.toNat % P)) exp

/-- Multiplicative inverse via Fermat's little theorem. -/
def inv (a : UInt64) : UInt64 := pow a (UInt64.ofNat (P - 2))

end field

/-- Locked stake plus a secret key. -/
structure QuotaNote where
  stake : UInt64
  quotaKey : Bytes32
  deriving DecidableEq

/-- Slots per epoch granted by a given stake. -/
def stakePerSlot : UInt64 := 1000

/-- The per-transaction anti-spam artifact for the quota lane. -/
structure RateProof where
  epoch : ℕ
  rateNullifier : Bytes32
  x : UInt64
  y : UInt64
  deriving DecidableEq

/-- Encoded size of a rate proof. -/
def rateProofLen : ℕ := 8 + 32 + 8 + 8

namespace RateProof

def toBytes (proof : RateProof) : Bytes.Array rateProofLen :=
  ⟨leBytes proof.epoch ++ proof.rateNullifier.toList ++ leBytes proof.x.toNat ++
    leBytes proof.y.toNat, by simp [rateProofLen]⟩

def fromBytes (b : Bytes.Array rateProofLen) : RateProof where
  epoch := Bytes.ofLittleEndian (Bytes.slice b 0 8 (by decide)).toList
  rateNullifier := Bytes.slice b 8 32 (by decide)
  x := UInt64.ofNat (Bytes.ofLittleEndian (Bytes.slice b 40 8 (by decide)).toList)
  y := UInt64.ofNat (Bytes.ofLittleEndian (Bytes.slice b 48 8 (by decide)).toList)

end RateProof

inductive QuotaError where
  | quotaExceeded (k quota : UInt64)
  deriving DecidableEq

inductive Admit where
  /-- Fresh slot, transaction admitted. -/
  | ok
  /-- The slot was already used for the same message. -/
  | duplicate
  /-- The slot was reused for a different message. -/
  | «slash» (recoveredSecret : UInt64)
  deriving DecidableEq

/-- Registry of used slots: the share first seen for each epoch and nullifier. -/
structure QuotaRegistry where
  seen : ℕ × Bytes32 → Option (UInt64 × UInt64)

namespace QuotaRegistry

def new : QuotaRegistry := ⟨fun _ => none⟩

/-- Secret recovered from two points of one line. -/
def interpolate (x0 y0 x1 y1 : UInt64) : UInt64 :=
  let dx := field.sub x1 x0
  let dy := field.sub y1 y0
  let a1 := field.mul dy (field.inv dx)
  field.sub y0 (field.mul a1 x0)

/-- Admit a rate proof. -/
def admitProof (registry : QuotaRegistry) (proof : RateProof) : QuotaRegistry × Admit :=
  let key := (proof.epoch, proof.rateNullifier)
  match registry.seen key with
  | none => (⟨Function.update registry.seen key (some (proof.x, proof.y))⟩, .ok)
  | some (x0, y0) =>
      if x0 = proof.x then (registry, .duplicate)
      else (registry, .slash (interpolate x0 y0 proof.x proof.y))

/-- A free slot is taken by the proof. -/
theorem admitProof_of_free {registry : QuotaRegistry} {proof : RateProof}
    (free : registry.seen (proof.epoch, proof.rateNullifier) = none) :
    registry.admitProof proof =
      (⟨Function.update registry.seen (proof.epoch, proof.rateNullifier)
        (some (proof.x, proof.y))⟩, .ok) := by
  simp [admitProof, free]

/-- A used slot compares the message coordinates. -/
theorem admitProof_of_seen {registry : QuotaRegistry} {proof : RateProof} {x0 y0 : UInt64}
    (used : registry.seen (proof.epoch, proof.rateNullifier) = some (x0, y0)) :
    registry.admitProof proof =
      if x0 = proof.x then (registry, .duplicate)
      else (registry, .slash (interpolate x0 y0 proof.x proof.y)) := by
  simp only [admitProof, used]

/-- A used slot is refused and leaves the registry as it was. -/
theorem admitProof_of_used {registry : QuotaRegistry} {proof : RateProof} {share : UInt64 × UInt64}
    (used : registry.seen (proof.epoch, proof.rateNullifier) = some share) :
    ∃ refusal, refusal ≠ .ok ∧ registry.admitProof proof = (registry, refusal) := by
  rw [admitProof_of_seen used]
  by_cases same : share.1 = proof.x
  · exact ⟨.duplicate, by simp, if_pos same⟩
  · exact ⟨.slash _, by simp, if_neg same⟩

/-- The first share of a slot stays, and no other slot changes. -/
theorem seen_admitProof (registry : QuotaRegistry) (proof : RateProof) (slot : ℕ × Bytes32) :
    (registry.admitProof proof).1.seen slot =
      if slot = (proof.epoch, proof.rateNullifier) then
        some ((registry.seen slot).getD (proof.x, proof.y))
      else registry.seen slot := by
  cases found : registry.seen (proof.epoch, proof.rateNullifier) with
  | none =>
      rw [admitProof_of_free found]
      by_cases same : slot = (proof.epoch, proof.rateNullifier)
      · subst same
        simp [found]
      · simp [same]
  | some share =>
      obtain ⟨refusal, -, admitted⟩ := admitProof_of_used found
      rw [admitted]
      by_cases same : slot = (proof.epoch, proof.rateNullifier)
      · subst same
        simp [found]
      · simp [same]

end QuotaRegistry

variable [Blake3]

def fieldFrom (context : String) (parts : List (List UInt8)) : UInt64 :=
  field.reduce (Bytes.ofLittleEndian ((hashParts context parts).toList.take 8))

/-- The Shamir x-coordinate a rate proof must use for a given message. -/
def messageX (message : List UInt8) : UInt64 := fieldFrom "unknown.v0.quota.x" [message]

namespace QuotaNote

def quota (note : QuotaNote) : UInt64 :=
  if note.stake / stakePerSlot ≤ 1 then 1 else note.stake / stakePerSlot

/-- Secret `a0` (the constant term of the RLN line), recovered on misuse. -/
def secret (note : QuotaNote) : UInt64 :=
  fieldFrom "unknown.v0.quota.a0" [note.quotaKey.toList]

/-- Line slope `a1`. -/
def slope (note : QuotaNote) (epoch : ℕ) : UInt64 :=
  fieldFrom "unknown.v0.quota.a1" [note.quotaKey.toList, leBytes epoch]

/-- Rate nullifier for slot `k` in `epoch`. -/
def rateNullifier (note : QuotaNote) (epoch : ℕ) (k : UInt64) : Bytes32 :=
  hashParts "unknown.v0.quota.rn" [note.quotaKey.toList, leBytes epoch, leBytes k.toNat]

/-- Produce a rate proof binding this slot to a message. -/
def signal (note : QuotaNote) (epoch : ℕ) (k : UInt64) (message : List UInt8) :
    Except QuotaError RateProof :=
  if k ≥ note.quota then .error (.quotaExceeded k note.quota)
  else
    let x := messageX message
    let y := field.add note.secret (field.mul (note.slope epoch) x)
    .ok ⟨epoch, note.rateNullifier epoch k, x, y⟩

end QuotaNote

end ShieldedLedger
