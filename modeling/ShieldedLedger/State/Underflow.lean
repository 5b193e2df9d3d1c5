import ShieldedLedger.AntispamQuota.Field
import ShieldedLedger.State.Idle

/-!
# The subtractions of the registry

`field::sub` adds the modulus before it subtracts, so it is exact as long as the
subtrahend exceeds the minuend by at most the modulus.  Message coordinates are
reduced, because stateless validation recomputes them; the other coordinate of a
share comes from the wire as it is.
-/

namespace ShieldedLedger

/-! ## Checked arithmetic -/

namespace field

/-- `field::sub` with overflow checks; `none` is the panic. -/
def checkedSub (a b : UInt64) : Option UInt64 :=
  if b.toNat ≤ a.toNat + P then some (sub a b) else none

theorem checkedSub_of_le {a b : UInt64} (fits : b.toNat ≤ a.toNat + P) :
    checkedSub a b = some (sub a b) := if_pos fits

/-- A reduced word can be subtracted from any word. -/
theorem checkedSub_of_reduced {a b : UInt64} (reduced : Reduced b) :
    checkedSub a b = some (sub a b) :=
  checkedSub_of_le (reduced.le.trans (Nat.le_add_left _ _))

end field

namespace QuotaRegistry

/-- `QuotaRegistry::admit` with overflow checks; `none` is the panic. -/
def checkedAdmit (registry : QuotaRegistry) (proof : RateProof) :
    Option (QuotaRegistry × Admit) :=
  match registry.seen (proof.epoch, proof.rateNullifier) with
  | none =>
      some (⟨Function.update registry.seen (proof.epoch, proof.rateNullifier)
        (some (proof.x, proof.y))⟩, .ok)
  | some (x0, y0) =>
      if x0 = proof.x then some (registry, .duplicate)
      else do
        let dx ← field.checkedSub proof.x x0
        let dy ← field.checkedSub proof.y y0
        let a1 := field.mul dy (field.inv dx)
        let a0 ← field.checkedSub y0 (field.mul a1 x0)
        some (registry, .slash a0)

/-- Stored message coordinates are reduced. -/
def Normalized (registry : QuotaRegistry) : Prop :=
  ∀ slot share, registry.seen slot = some share → field.Reduced share.1

/-- The coordinate already stored for the proof's slot under another message exceeds the
proof's own by at most the modulus. -/
def InRange (registry : QuotaRegistry) (proof : RateProof) : Prop :=
  ∀ x0 y0, registry.seen (proof.epoch, proof.rateNullifier) = some (x0, y0) → x0 ≠ proof.x →
    y0.toNat ≤ proof.y.toNat + field.P

theorem normalized_new : Normalized new := by
  intro slot share seen
  cases seen

theorem normalized_admitProof {registry : QuotaRegistry} (normalized : registry.Normalized)
    {proof : RateProof} (reduced : field.Reduced proof.x) :
    (registry.admitProof proof).1.Normalized := by
  intro slot share seen
  rw [seen_admitProof] at seen
  split at seen
  · cases before : registry.seen slot with
    | none =>
        rw [before] at seen
        rw [← Option.some.inj seen]
        exact reduced
    | some first =>
        rw [before] at seen
        rw [← Option.some.inj seen]
        exact normalized slot first before
  · exact normalized slot share seen

/-- On stored coordinates that are reduced, the checks pass exactly in range, and then the
verdict is that of the unchecked code. -/
theorem checkedAdmit_eq_iff {registry : QuotaRegistry} (normalized : registry.Normalized)
    (proof : RateProof) :
    registry.checkedAdmit proof = some (registry.admitProof proof) ↔ registry.InRange proof := by
  cases seen : registry.seen (proof.epoch, proof.rateNullifier) with
  | none => simp [checkedAdmit, InRange, admitProof_of_free seen, seen]
  | some share =>
      obtain ⟨x0, y0⟩ := share
      have x0Reduced : field.Reduced x0 := normalized _ _ seen
      have productReduced (a : UInt64) : field.Reduced (field.mul a x0) := field.reduced_reduce _
      by_cases same : x0 = proof.x
      · have inRange : registry.InRange proof := by
          intro x0' y0' stored different
          rw [seen] at stored
          exact absurd (same ▸ (Prod.mk.inj (Option.some.inj stored)).1).symm different
        simp [checkedAdmit, admitProof_of_seen seen, seen, same, inRange]
      · have checked : registry.checkedAdmit proof =
            (field.checkedSub proof.y y0).map fun dy => (registry, .slash
              (field.sub y0 (field.mul
                (field.mul dy (field.inv (field.sub proof.x x0))) x0))) := by
          simp only [checkedAdmit, seen, if_neg same, field.checkedSub_of_reduced x0Reduced,
            field.checkedSub_of_reduced (productReduced _), Option.bind_eq_bind, Option.bind_some]
          cases field.checkedSub proof.y y0 <;> rfl
        rw [checked, admitProof_of_seen seen, if_neg same]
        constructor
        · intro passed x0' y0' stored _
          rw [seen] at stored
          obtain ⟨rfl, rfl⟩ := Prod.mk.inj (Option.some.inj stored)
          by_contra beyond
          rw [field.checkedSub, if_neg beyond] at passed
          cases passed
        · intro inRange
          rw [field.checkedSub_of_le (inRange x0 y0 seen same)]
          rfl

end QuotaRegistry

/-! ## The calls of a checkpoint -/

section Calls

variable [Blake3]

namespace Ledger

/-- The proof that the loop body hands to `QuotaRegistry::admit`, if it gets there. -/
def admitCall (self : Ledger) (verifier : SpendVerifier) (tx : TxV1) (staged : Staged) :
    Option RateProof :=
  if !self.tree.anchorValid tx.anchor then none
  else if validateStateless tx verifier self.difficultyBits ≠ .ok () then none
  else if tx.nullifiers.toList.any fun nf =>
      decide (nf ∈ self.nullifiers) || decide (nf ∈ staged.seenThisCheckpoint) then none
  else match tx.antispam with
    | .pow _ => none
    | .quota rp => if rp.epoch ≠ (self.height + 1) / epochLength then none else some rp

/-- The calls made from index `i` on, each with the registry it meets. -/
def admitCallsFrom (self : Ledger) (verifier : SpendVerifier) :
    (i : ℕ) → List TxV1 → Staged → List (QuotaRegistry × RateProof)
  | _, [], _ => []
  | i, tx :: rest, staged =>
      ((self.admitCall verifier tx staged).map fun rp => (staged.quota, rp)).toList ++
        self.admitCallsFrom verifier (i + 1) rest (self.stageTx verifier i tx staged)

/-- The calls that a checkpoint makes. -/
def admitCalls (self : Ledger) (verifier : SpendVerifier) (ordered : List TxV1) :
    List (QuotaRegistry × RateProof) :=
  self.admitCallsFrom verifier 0 ordered (Staged.init self.quota)

/-- The call is what changes the registry. -/
theorem quota_stageTx (self : Ledger) (verifier : SpendVerifier) (i : ℕ) (tx : TxV1)
    (staged : Staged) :
    (self.stageTx verifier i tx staged).quota =
      match self.admitCall verifier tx staged with
      | none => staged.quota
      | some rp => (staged.quota.admitProof rp).1 := by
  unfold stageTx admitCall
  split
  · rfl
  split
  · rfl
  split
  · rfl
  cases tx.antispam with
  | pow solution => rfl
  | quota rp =>
      dsimp only
      split
      · rfl
      · cases admitted : staged.quota.admitProof rp with
        | mk quota verdict =>
            have registry : (staged.quota.admitProof rp).1 = quota := by rw [admitted]
            cases verdict with
            | ok => exact registry.symm
            | duplicate => exact registry.symm
            | «slash» secret => exact registry.symm

/-- Stateless validation has bound the message coordinate of the proof. -/
theorem reduced_of_admitCall {self : Ledger} {verifier : SpendVerifier} {tx : TxV1}
    {staged : Staged} {rp : RateProof} (called : self.admitCall verifier tx staged = some rp) :
    field.Reduced rp.x := by
  unfold admitCall at called
  split at called
  · cases called
  split at called
  · cases called
  rename_i valid
  split at called
  · cases called
  have lane := ((validateStateless_ok_iff ..).mp (not_not.mp valid)).2.2.1
  cases antispam : tx.antispam with
  | pow solution =>
      rw [antispam] at called
      cases called
  | quota proof =>
      simp only [checkAntiSpam, antispam] at lane called
      split at called
      · cases called
      split at lane
      · cases lane
      · rename_i bound
        rw [← Option.some.inj called, not_not.mp bound]
        exact field.reduced_reduce _

theorem normalized_stageTx (self : Ledger) (verifier : SpendVerifier) (i : ℕ) (tx : TxV1)
    {staged : Staged} (normalized : staged.quota.Normalized) :
    (self.stageTx verifier i tx staged).quota.Normalized := by
  rw [quota_stageTx]
  cases called : self.admitCall verifier tx staged with
  | none => exact normalized
  | some rp => exact QuotaRegistry.normalized_admitProof normalized (reduced_of_admitCall called)

theorem normalized_stageFrom (self : Ledger) (verifier : SpendVerifier) (ordered : List TxV1) :
    ∀ (i : ℕ) {staged : Staged}, staged.quota.Normalized →
      (self.stageFrom verifier i ordered staged).quota.Normalized := by
  induction ordered with
  | nil => exact fun _ _ normalized => normalized
  | cons tx rest ih =>
      intro i staged normalized
      exact ih (i + 1) (self.normalized_stageTx verifier i tx normalized)

/-- Every call of the walk meets a registry with reduced message coordinates. -/
theorem normalized_of_call (self : Ledger) (verifier : SpendVerifier) (ordered : List TxV1) :
    ∀ (i : ℕ) {staged : Staged}, staged.quota.Normalized →
      ∀ call ∈ self.admitCallsFrom verifier i ordered staged, call.1.Normalized := by
  induction ordered with
  | nil =>
      intro i staged _ call member
      cases member
  | cons tx rest ih =>
      intro i staged normalized call member
      cases List.mem_append.mp member with
      | inl here =>
          obtain ⟨rp, _, rfl⟩ := Option.map_eq_some_iff.mp (Option.mem_toList.mp here)
          exact normalized
      | inr later =>
          exact ih (i + 1) (self.normalized_stageTx verifier i tx normalized) call later

/-- The ledgers a node can hold: from genesis or a snapshot, checkpoint by checkpoint. -/
inductive Reachable : Ledger → Prop where
  | genesis (emission : EmissionParams) (validators : List ValidatorInfo) (difficultyBits : ℕ)
      (genesisNotes : List (Commitment × UInt64)) :
      Reachable (Ledger.genesis emission validators difficultyBits genesisNotes)
  | restore [Redb] {store : Store} {emission : EmissionParams}
      {validators : List ValidatorInfo} {difficultyBits : ℕ} {ledger : Ledger}
      (restored : Ledger.restore store emission validators difficultyBits = .ok ledger) :
      Reachable ledger
  | checkpoint {ledger : Ledger} (reachable : Reachable ledger) (verifier : SpendVerifier)
      (ordered : List TxV1) : Reachable (ledger.applyCheckpoint verifier ordered).1

/-- A restored ledger starts with an empty registry. -/
theorem quota_of_restore [Redb] {store : Store} {emission : EmissionParams}
    {validators : List ValidatorInfo} {difficultyBits : ℕ} {ledger : Ledger}
    (restored : restore store emission validators difficultyBits = .ok ledger) :
    ledger.quota = QuotaRegistry.new := by
  unfold restore at restored
  cases tree : store.loadTree with
  | error error =>
      rw [tree] at restored
      cases restored
  | ok loaded =>
      cases nullifiers : store.loadNullifiers with
      | error error =>
          rw [tree, nullifiers] at restored
          cases restored
      | ok set =>
          rw [tree, nullifiers] at restored
          rw [← Except.ok.inj restored]

/-- On a reachable ledger the stored message coordinates are reduced. -/
theorem Reachable.normalized {ledger : Ledger} (reachable : ledger.Reachable) :
    ledger.quota.Normalized := by
  induction reachable with
  | genesis emission validators difficultyBits genesisNotes =>
      rw [genesis_eq]
      exact QuotaRegistry.normalized_new
  | restore restored =>
      rw [quota_of_restore restored]
      exact QuotaRegistry.normalized_new
  | checkpoint reachable verifier ordered ih =>
      rw [applyCheckpoint_quota]
      exact normalized_stageFrom _ verifier ordered 0 ih

/-- When a checkpoint admits a rate proof without underflow.  For every call that a
checkpoint of a reachable ledger makes, the subtractions pass their checks exactly when
the coordinate stored for the slot under another message exceeds the one of the proof by
at most the modulus. -/
theorem checkedAdmit_iff_inRange {ledger : Ledger} (reachable : ledger.Reachable)
    (verifier : SpendVerifier) (ordered : List TxV1) :
    ∀ call ∈ ledger.admitCalls verifier ordered,
      call.1.checkedAdmit call.2 = some (call.1.admitProof call.2) ↔ call.1.InRange call.2 := by
  intro call called
  have normalized := ledger.normalized_of_call verifier ordered 0 reachable.normalized call called
  exact QuotaRegistry.checkedAdmit_eq_iff normalized call.2

end Ledger

/-- A full-size transaction on slot 7 of epoch 0, with the given second coordinate. -/
def shareTx (anchor : Anchor) (low high : UInt8) (y : UInt64) : TxV1 :=
  devTx anchor low high (zeroOutputs encOutputLen encOutputLen) fun digest =>
    .quota ⟨0, Bytes.filled 32 7, messageX digest.toList, y⟩

/-- It is its own encoding's decoding. -/
theorem decode_encode_shareTx {anchor : Anchor} (low high : UInt8) (y : UInt64)
    (height : anchor.height < 2 ^ 64) :
    TxV1.decode (shareTx anchor low high y).encode = .ok (shareTx anchor low high y) := by
  apply TxV1.decode_eq_ok.mpr
  refine ⟨⟨height, ?_, (by decide : (0 : ℕ) < 2 ^ 64), length_devProof _⟩, rfl⟩
  exact length_zeroOutputs encOutputLen

end Calls

section Samples

open Reference

/-- Two transactions of the first checkpoint on one slot; the second coordinates are
`2 ^ 63` and zero. -/
def shareTxs : List TxV1 :=
  [shareTx freshLedger.currentAnchor 1 2 0x8000000000000000,
    shareTx freshLedger.currentAnchor 3 4 0]

theorem shareTxs_underflow :
    ((freshLedger.admitCalls devVerifier shareTxs).all fun call =>
      (call.1.checkedAdmit call.2).isSome) = false := by
  decide +kernel

theorem admitCalls_shareTxs : freshLedger.admitCalls devVerifier shareTxs ≠ [] := by
  intro empty
  have underflow := shareTxs_underflow
  rw [empty] at underflow
  cases underflow

/-- The last call that the two transactions lead to. -/
def lastCall : QuotaRegistry × RateProof :=
  (freshLedger.admitCalls devVerifier shareTxs).getLast admitCalls_shareTxs

/-- The checks of that call pass exactly in range. -/
theorem checkedAdmit_iff_inRange_sample :
    lastCall.1.checkedAdmit lastCall.2 = some (lastCall.1.admitProof lastCall.2) ↔
      lastCall.1.InRange lastCall.2 :=
  Ledger.checkedAdmit_iff_inRange (.genesis ..) devVerifier shareTxs lastCall (List.getLast_mem _)

/-- Decoded transactions make a checkpoint of the fresh ledger underflow. -/
theorem admit_underflows :
    ¬∀ (_ : Blake3) (ledger : Ledger) (verifier : SpendVerifier) (wire : List (List UInt8))
      (ordered : List TxV1), ledger.Reachable →
      List.Forall₂ (fun bytes tx => TxV1.decode bytes = .ok tx) wire ordered →
      ∀ call ∈ ledger.admitCalls verifier ordered,
        call.1.checkedAdmit call.2 = some (call.1.admitProof call.2) := by
  intro claim
  have decoded : List.Forall₂ (fun bytes tx => TxV1.decode bytes = .ok tx)
      (shareTxs.map TxV1.encode) shareTxs :=
    .cons (decode_encode_shareTx 1 2 0x8000000000000000 (by decide))
      (.cons (decode_encode_shareTx 3 4 0 (by decide)) .nil)
  have checked := claim Reference.blake3 freshLedger devVerifier _ shareTxs (.genesis ..) decoded
  have passed : ((freshLedger.admitCalls devVerifier shareTxs).all fun call =>
      (call.1.checkedAdmit call.2).isSome) = true := by
    rw [List.all_eq_true]
    intro call member
    rw [checked call member]
    rfl
  rw [shareTxs_underflow] at passed
  cases passed

end Samples

end ShieldedLedger
