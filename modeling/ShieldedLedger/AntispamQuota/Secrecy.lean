import ShieldedLedger.AntispamQuota.Field
import ShieldedLedger.General.Line
import ShieldedLedger.Reference

/-!
# What two honest shares reveal

The registry interpolates two shares of one rate nullifier to recover the
secret of a note that used a slot twice.  The slope of the line depends on the
epoch only, so the shares of different slots lie on one line as well.
-/

namespace ShieldedLedger

section Shares

variable [Blake3]

/-- A slot is signalled exactly when it is in quota, with the point of the epoch's line over
the message. -/
theorem signal_eq_ok_iff {note : QuotaNote} {epoch : ℕ} {k : UInt64} {message : List UInt8}
    {proof : RateProof} :
    note.signal epoch k message = .ok proof ↔ k < note.quota ∧
      proof = ⟨epoch, note.rateNullifier epoch k, messageX message,
        field.add note.secret (field.mul (note.slope epoch) (messageX message))⟩ := by
  rw [QuotaNote.signal]
  split
  · rename_i exhausted
    simp [UInt64.not_lt.mpr exhausted]
  · rename_i inQuota
    simp only [UInt64.not_le.mp inQuota, true_and, Except.ok.injEq, eq_comm]

theorem signal_of_lt (note : QuotaNote) (epoch : ℕ) {k : UInt64} (message : List UInt8)
    (inQuota : k < note.quota) :
    note.signal epoch k message = .ok ⟨epoch, note.rateNullifier epoch k, messageX message,
      field.add note.secret (field.mul (note.slope epoch) (messageX message))⟩ :=
  signal_eq_ok_iff.mpr ⟨inQuota, rfl⟩

/-- A proof signalled for an epoch and slot carries both. -/
theorem slot_of_signal {note : QuotaNote} {epoch : ℕ} {k : UInt64} {message : List UInt8}
    {proof : RateProof} (signalled : note.signal epoch k message = .ok proof) :
    proof.epoch = epoch ∧ proof.rateNullifier = note.rateNullifier epoch k := by
  obtain ⟨-, rfl⟩ := signal_eq_ok_iff.mp signalled
  exact ⟨rfl, rfl⟩

/-- A signalled share is the point of the epoch's line over the message. -/
theorem signal_ok {note : QuotaNote} {epoch : ℕ} {k : UInt64} {message : List UInt8}
    {proof : RateProof} (signalled : note.signal epoch k message = .ok proof) :
    proof.x = messageX message ∧ field.Reduced proof.x ∧ field.Reduced proof.y ∧
      field.residue proof.y = Line.eval (field.residue note.secret)
        (field.residue (note.slope epoch)) (field.residue proof.x) := by
  obtain ⟨-, rfl⟩ := signal_eq_ok_iff.mp signalled
  exact ⟨rfl, field.reduced_reduce _, field.reduced_add _ _, by simp [Line.eval]⟩

omit [Blake3] in
/-- The interpolation of reduced shares is the interpolation of the field. -/
theorem residue_interpolate {x0 y0 x1 y1 : UInt64} (x0Reduced : field.Reduced x0)
    (y0Reduced : field.Reduced y0) :
    field.residue (QuotaRegistry.interpolate x0 y0 x1 y1) =
      Line.intercept (field.residue x0) (field.residue y0) (field.residue x1)
        (field.residue y1) := by
  unfold QuotaRegistry.interpolate Line.intercept
  have product (a : UInt64) : field.Reduced (field.mul a x0) := field.reduced_reduce _
  rw [field.residue_sub (le_trans (product _).le (Nat.le_add_left _ _)),
    field.residue_mul, field.residue_mul, field.residue_inv,
    field.residue_sub (le_trans x0Reduced.le (Nat.le_add_left _ _)),
    field.residue_sub (le_trans y0Reduced.le (Nat.le_add_left _ _))]

/-- Secret and slope depend on the quota key alone, so two shares of one key and epoch with
different message coordinates interpolate to its secret. -/
theorem interpolate_of_quotaKey {note note' : QuotaNote} {epoch : ℕ} {k k' : UInt64}
    {message message' : List UInt8} {proof proof' : RateProof}
    (sameKey : note.quotaKey = note'.quotaKey)
    (first : note.signal epoch k message = .ok proof)
    (second : note'.signal epoch k' message' = .ok proof')
    (distinct : messageX message ≠ messageX message') :
    QuotaRegistry.interpolate proof.x proof.y proof'.x proof'.y = note.secret := by
  obtain ⟨xEq, xReduced, yReduced, onLine⟩ := signal_ok first
  obtain ⟨xEq', xReduced', -, onLine'⟩ := signal_ok second
  have secretEq : note'.secret = note.secret := by rw [QuotaNote.secret, ← sameKey]; rfl
  have slopeEq : note'.slope epoch = note.slope epoch := by rw [QuotaNote.slope, ← sameKey]; rfl
  have distinctResidues : field.residue proof.x ≠ field.residue proof'.x := by
    intro equal
    exact distinct (xEq ▸ xEq' ▸ xReduced.eq_of_residue xReduced' equal)
  refine field.Reduced.eq_of_residue (field.reduced_sub _ _) (field.reduced_reduce _) ?_
  rw [residue_interpolate xReduced yReduced, onLine, onLine', secretEq, slopeEq,
    Line.intercept_eval_self _ _ distinctResidues]

/-- Any two shares of one note and epoch with different message coordinates
reveal the secret, whichever slots they were signalled for. -/
theorem interpolate_eq_secret {note : QuotaNote} {epoch : ℕ} {k k' : UInt64}
    {message message' : List UInt8} {proof proof' : RateProof}
    (first : note.signal epoch k message = .ok proof)
    (second : note.signal epoch k' message' = .ok proof')
    (distinct : messageX message ≠ messageX message') :
    QuotaRegistry.interpolate proof.x proof.y proof'.x proof'.y = note.secret :=
  interpolate_of_quotaKey rfl first second distinct

/-- The hash inputs behind the shares of two messages. -/
def shareInputs (note : QuotaNote) (epoch : ℕ) (message message' : List UInt8) :
    List (String × List (List UInt8)) :=
  [("unknown.v0.quota.a0", [note.quotaKey.toList]),
    ("unknown.v0.quota.a1", [note.quotaKey.toList, leBytes epoch]),
    ("unknown.v0.quota.x", [message]), ("unknown.v0.quota.x", [message'])]

/-- Distinct inputs of the given ones have distinct field elements. -/
def FieldCollisionFree (inputs : List (String × List (List UInt8))) : Prop :=
  Set.InjOn (fun input : String × List (List UInt8) => fieldFrom input.1 input.2)
    {input | input ∈ inputs}

/-- Listed inputs with pairwise distinct field elements do not collide. -/
theorem FieldCollisionFree.of_nodup {inputs : List (String × List (List UInt8))}
    (nodup : (inputs.map fun input => fieldFrom input.1 input.2).Nodup) :
    FieldCollisionFree inputs :=
  fun _ left _ right equal => List.inj_on_of_nodup_map nodup left right equal

end Shares

section Samples

open Reference

def sampleQuotaNote : QuotaNote := ⟨5000, Bytes.filled 32 42⟩

/-- Slots 0 and 1 of one epoch, used once each, reveal the sample's secret. -/
theorem interpolate_eq_secret_sample :
    ∃ proof proof', sampleQuotaNote.signal 7 0 [1] = .ok proof ∧
      sampleQuotaNote.signal 7 1 [2] = .ok proof' ∧
      QuotaRegistry.interpolate proof.x proof.y proof'.x proof'.y = sampleQuotaNote.secret :=
  have first := signal_of_lt sampleQuotaNote 7 [1] (k := 0) (by decide)
  have second := signal_of_lt sampleQuotaNote 7 [2] (k := 1) (by decide)
  ⟨_, _, first, second, interpolate_eq_secret first second (by decide +kernel)⟩

/-- Honest use of two slots does reveal the secret. -/
theorem honest_slots_reveal_secret :
    ¬∀ (_ : Blake3) (note : QuotaNote) (epoch : ℕ) (k k' : UInt64) (message message' : List UInt8)
      (proof proof' : RateProof), k ≠ k' →
      FieldCollisionFree (shareInputs note epoch message message') →
      note.signal epoch k message = .ok proof → note.signal epoch k' message' = .ok proof' →
      messageX message ≠ messageX message' →
      QuotaRegistry.interpolate proof.x proof.y proof'.x proof'.y ≠ note.secret := by
  intro claim
  have free : FieldCollisionFree (shareInputs sampleQuotaNote 7 [1] [2]) :=
    .of_nodup (by decide +kernel)
  have first := signal_of_lt sampleQuotaNote 7 [1] (k := 0) (by decide)
  have second := signal_of_lt sampleQuotaNote 7 [2] (k := 1) (by decide)
  exact claim Reference.blake3 sampleQuotaNote 7 0 1 [1] [2] _ _ (by decide) free first second
    (by decide +kernel) (by decide +kernel)

end Samples

end ShieldedLedger
