import ShieldedLedger.AntispamQuota.Secrecy
import ShieldedLedger.General.Machine

/-!
# Verdicts of the registry on honest shares

The registry keeps the first share of every slot.  When the rate nullifiers of
the signalled slots do not collide, its slots are those of the stakers, so each
verdict is a function of the first earlier signal for the same key, epoch and
slot number.
-/

namespace ShieldedLedger

section Verdicts

variable [Blake3]

/-- A rate proof together with the signal that produced it. -/
structure Signal where
  note : QuotaNote
  epoch : ℕ
  k : UInt64
  message : List UInt8
  proof : RateProof
  signalled : note.signal epoch k message = .ok proof

namespace Signal

/-- The signal of an in-quota slot. -/
def ofSlot (note : QuotaNote) (epoch : ℕ) (k : UInt64) (message : List UInt8)
    (inQuota : k < note.quota) : Signal :=
  ⟨note, epoch, k, message, _, signal_of_lt note epoch message inQuota⟩

/-- Whose slot is used: quota key, epoch and slot number. -/
def slot (signal : Signal) : Bytes32 × ℕ × UInt64 :=
  (signal.note.quotaKey, signal.epoch, signal.k)

/-- The registry's key for the slot. -/
def key (signal : Signal) : ℕ × Bytes32 := (signal.proof.epoch, signal.proof.rateNullifier)

/-- The share stored for the slot. -/
def share (signal : Signal) : UInt64 × UInt64 := (signal.proof.x, signal.proof.y)

/-- The hash evaluation behind the rate nullifier. -/
def rateQuery (signal : Signal) : Query :=
  partsQuery "unknown.v0.quota.rn"
    [signal.note.quotaKey.toList, leBytes signal.epoch, leBytes signal.k.toNat]

theorem key_eq (signal : Signal) :
    signal.key = (signal.epoch, signal.note.rateNullifier signal.epoch signal.k) := by
  obtain ⟨epochEq, nullifierEq⟩ := slot_of_signal signal.signalled
  rw [key, epochEq, nullifierEq]

theorem x_eq (signal : Signal) : signal.proof.x = messageX signal.message :=
  (signal_ok signal.signalled).1

theorem framable_rateParts (signal : Signal) :
    Bytes.Framable
      [signal.note.quotaKey.toList, leBytes signal.epoch, leBytes signal.k.toNat] := by
  simp

/-- Without collisions the registry's keys are the stakers' slots. -/
theorem key_eq_iff {queries : Set Query} (free : CollisionFree queries) {left right : Signal}
    (leftMem : left.rateQuery ∈ queries) (rightMem : right.rateQuery ∈ queries) :
    left.key = right.key ↔ left.slot = right.slot := by
  rw [key_eq, key_eq]
  constructor
  · intro equal
    obtain ⟨epochEq, nullifierEq⟩ := Prod.mk.inj equal
    have parts := free.parts_eq leftMem rightMem left.framable_rateParts right.framable_rateParts
      nullifierEq
    simp only [List.cons.injEq, and_true] at parts
    obtain ⟨keyParts, -, slotParts⟩ := parts
    have keyEq : left.note.quotaKey = right.note.quotaKey := List.Vector.eq _ _ keyParts
    have slotEq : left.k = right.k := leBytes_toNat_inj.mp slotParts
    rw [slot, slot, keyEq, epochEq, slotEq]
  · intro equal
    obtain ⟨keyEq, rest⟩ := Prod.mk.inj equal
    obtain ⟨epochEq, slotEq⟩ := Prod.mk.inj rest
    rw [epochEq, slotEq, QuotaNote.rateNullifier, QuotaNote.rateNullifier, keyEq]

/-- Feed the proof of a signal to the registry. -/
def feed (registry : QuotaRegistry) (signal : Signal) : QuotaRegistry × Admit :=
  registry.admitProof signal.proof

/-- The verdict a signal deserves after earlier ones. -/
def deserved (earlier : List Signal) (signal : Signal) : Admit :=
  match earlier.find? fun other => decide (other.slot = signal.slot) with
  | none => .ok
  | some first =>
      if messageX first.message = messageX signal.message then .duplicate
      else .slash signal.note.secret

/-- The registry holds the first share of each key among the earlier signals. -/
def Holds (registry : QuotaRegistry) (earlier : List Signal) : Prop :=
  ∀ key, registry.seen key =
    (earlier.find? fun other => decide (other.key = key)).map Signal.share

theorem holds_new : Holds QuotaRegistry.new [] := fun _ => rfl

theorem holds_feed {registry : QuotaRegistry} {earlier : List Signal}
    (holds : Holds registry earlier) (signal : Signal) :
    Holds (feed registry signal).1 (earlier ++ [signal]) := by
  intro key
  have keyEq : (signal.proof.epoch, signal.proof.rateNullifier) = signal.key := rfl
  rw [feed, QuotaRegistry.seen_admitProof, holds key, List.find?_append, keyEq]
  by_cases same : signal.key = key
  · rw [if_pos same.symm]
    cases found : earlier.find? fun other => decide (other.key = key) with
    | none => simp [same, share]
    | some first => simp
  · rw [if_neg (Ne.symm same)]
    simp [same]

/-- The registry's verdict is the deserved one. -/
theorem feed_verdict {registry : QuotaRegistry} {earlier : List Signal}
    (holds : Holds registry earlier) {queries : Set Query} (free : CollisionFree queries)
    {signal : Signal} (queried : signal.rateQuery ∈ queries)
    (earlierQueried : ∀ other ∈ earlier, other.rateQuery ∈ queries) :
    (feed registry signal).2 = deserved earlier signal := by
  have sameSearch : (earlier.find? fun other => decide (other.key = signal.key)) =
      earlier.find? fun other => decide (other.slot = signal.slot) := by
    apply List.find?_congr
    intro other member
    exact decide_eq_decide.mpr (key_eq_iff free (earlierQueried other member) queried)
  have stored := holds signal.key
  rw [sameSearch] at stored
  rw [deserved]
  cases found : earlier.find? fun other => decide (other.slot = signal.slot) with
  | none =>
      rw [found] at stored
      rw [feed, QuotaRegistry.admitProof_of_free stored]
  | some first =>
      rw [found] at stored
      have slotEq : first.slot = signal.slot := by
        have accepted := List.find?_some found
        exact of_decide_eq_true accepted
      obtain ⟨sameKey, rest⟩ := Prod.mk.inj slotEq
      obtain ⟨sameEpoch, -⟩ := Prod.mk.inj rest
      have admitted := QuotaRegistry.admitProof_of_seen stored
      simp only [feed, admitted, x_eq]
      split
      · rfl
      · next distinct =>
        have recovered := interpolate_of_quotaKey sameKey first.signalled
          (sameEpoch ▸ signal.signalled) distinct
        have secretEq : first.note.secret = signal.note.secret := by
          rw [QuotaNote.secret, sameKey]
          rfl
        rw [x_eq, x_eq, secretEq] at recovered
        exact congrArg Admit.slash recovered

end Signal

/-- What the registry answers to a sequence of honest signals.  When the rate nullifiers do
not collide, a proof is admitted exactly if no earlier one used the same quota key, epoch
and slot; after the first such one it is a duplicate of the same message coordinate, and
otherwise slashes the secret of its note. -/
theorem verdicts_of_signals (signals : List Signal)
    (free : CollisionFree {query | query ∈ signals.map Signal.rateQuery}) :
    (Machine.run Signal.feed QuotaRegistry.new signals).2 =
      signals.mapIdx fun i signal => Signal.deserved (signals.take i) signal := by
  have general (earlier rest : List Signal) (registry : QuotaRegistry)
      (holds : Signal.Holds registry earlier) (split : earlier ++ rest = signals) :
      (Machine.run Signal.feed registry rest).2 =
        rest.mapIdx fun i signal => Signal.deserved (earlier ++ rest.take i) signal := by
    induction rest generalizing earlier registry with
    | nil => rfl
    | cons signal rest ih =>
        have queried (other : Signal) (member : other ∈ signals) :
            other.rateQuery ∈ {query | query ∈ signals.map Signal.rateQuery} :=
          List.mem_map_of_mem member
        have verdict := Signal.feed_verdict holds free
          (queried signal (split ▸ List.mem_append_right _ (List.mem_cons_self ..)))
          (fun other member => queried other (split ▸ List.mem_append_left _ member))
        have later := ih (earlier ++ [signal]) _ (Signal.holds_feed holds signal)
          (by rw [← split, List.append_assoc, List.singleton_append])
        rw [Machine.run_cons, later, verdict, List.mapIdx_cons, List.take_zero, List.append_nil]
        simp only [List.append_assoc, List.singleton_append, List.take_succ_cons]
  exact general [] signals QuotaRegistry.new Signal.holds_new rfl

end Verdicts

section Samples

open Reference

/-- One slot used for a message, again for the same one, and for another one; then the next
slot. -/
def sampleSignals : List Signal :=
  [.ofSlot sampleQuotaNote 7 0 [1] (by decide), .ofSlot sampleQuotaNote 7 0 [1] (by decide),
    .ofSlot sampleQuotaNote 7 0 [2] (by decide), .ofSlot sampleQuotaNote 7 1 [2] (by decide)]

theorem sampleSignals_deserved :
    (sampleSignals.mapIdx fun i signal => Signal.deserved (sampleSignals.take i) signal) =
      [.ok, .duplicate, .slash sampleQuotaNote.secret, .ok] := by
  decide +kernel

/-- The registry's verdicts on the sample. -/
theorem verdicts_of_sampleSignals :
    (Machine.run Signal.feed QuotaRegistry.new sampleSignals).2 =
      [.ok, .duplicate, .slash sampleQuotaNote.secret, .ok] :=
  (verdicts_of_signals sampleSignals (.of_pairwise (by decide +kernel))).trans
    sampleSignals_deserved

end Samples

end ShieldedLedger
