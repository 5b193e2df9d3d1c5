import ShieldedLedger.General.Scan
import ShieldedLedger.ProverDev.Statement

/-!
# Which constraint is reported

The spend statement is a list of named checks: the shape, then each input, then each
output, then the mint amount and the balance.  The source stops at the first one that
fails, and the constraint it names is the head of the list of all violations.
-/

namespace ShieldedLedger

section Checks

variable [Blake3] (w : SpendWitness) (pi : SpendPublicInputs)

/-- Arity and binding, before the inputs are read. -/
def shapeChecks : List (String × Bool) :=
  [("C0: wrong input/output arity",
      w.inputs.length == txInputs && w.outputs.length == txOutputs),
    ("C0: public input arity",
      pi.nullifiers.length == txInputs && pi.commitments.length == txOutputs),
    ("C8: binding digest mismatch", pi.bindingDigest == w.bindingDigest)]

/-- The checks on the input at one position. -/
def inputChecks (i : ℕ) (input : InputWitness) : List (String × Bool) :=
  [("C4: dummy note must have zero value", !input.isDummy || input.note.value == 0),
    ("C6: input value out of range", decide (input.note.value < maxMoney)),
    ("C1: membership proof invalid",
      input.isDummy || verifyPath input.note.commitment input.path pi.anchor.root),
    ("C3: note not owned by spender",
      input.isDummy || input.note.addrTag == w.spenderAddrTag),
    ("C2: nullifier derivation mismatch",
      some (input.note.nullifier w.spenderNk) == pi.nullifiers[i]?)]

/-- The checks on the output at one position. -/
def outputChecks (i : ℕ) (out : Note) : List (String × Bool) :=
  [("C6: output value out of range", decide (out.value < maxMoney)),
    ("C5: output commitment mismatch", some out.commitment == pi.commitments[i]?),
    ("C5: output rho derivation invalid",
      w.mintValue != 0 ||
        out.rho == rhoTransfer (pi.nullifiers.headD ⟨Bytes.filled 32 0⟩) (UInt8.ofNat i))]

/-- The range of the mint amount and the balance. -/
def totalChecks : List (String × Bool) :=
  [("C6: mint value out of range", decide (w.mintValue < maxMoney)),
    ("C7: value imbalance",
      valueSum (w.inputs.map InputWitness.note) + w.mintValue.toNat == valueSum w.outputs)]

/-- All checks of the spend statement, in source order. -/
def statementChecks : List (String × Bool) :=
  shapeChecks w pi ++ Scan.each (inputChecks w pi) 0 w.inputs ++
    Scan.each (outputChecks w pi) 0 w.outputs ++ totalChecks w

/-- The constraints that a statement violates, in source order. -/
def violations : List String := Scan.violated (statementChecks w pi)

/-- The result of a check that reports the first of some violations. -/
def verdictOf (names : List String) : Except ProveError Unit :=
  (Scan.report names).mapError ProveError.unsatisfied

omit [Blake3] in
/-- A test of the source that fails when a check does comes before the rest of the scan. -/
theorem verdictOf_cons {failed : Prop} [Decidable failed] {name : String} {holds : Bool}
    {checks : List (String × Bool)} {rest : Except ProveError Unit}
    (test : failed ↔ holds = false) (later : rest = verdictOf (Scan.violated checks)) :
    (if failed then .error (.unsatisfied name) else rest) =
      verdictOf (Scan.violated ((name, holds) :: checks)) := by
  cases holds with
  | false => rw [if_pos (test.mpr rfl), Scan.violated_cons]; rfl
  | true => rw [if_neg (by simp [test]), Scan.violated_cons, later]; rfl

omit [Blake3] in
theorem checkShape_eq : checkShape w pi = verdictOf (Scan.violated (shapeChecks w pi)) := by
  refine verdictOf_cons ?_ (verdictOf_cons ?_ (verdictOf_cons ?_ rfl))
  · simp [imp_iff_not_or]
  · simp [imp_iff_not_or]
  · simp

theorem checkInput_eq (i : ℕ) (input : InputWitness) :
    checkInput w pi i input = verdictOf (Scan.violated (inputChecks w pi i input)) := by
  refine verdictOf_cons ?_ (verdictOf_cons ?_ (verdictOf_cons ?_ (verdictOf_cons ?_
    (verdictOf_cons ?_ rfl))))
  · simp
  · simp
  · simp
  · simp
  · simp

theorem checkOutput_eq (i : ℕ) (out : Note) :
    checkOutput w pi (pi.nullifiers.headD ⟨Bytes.filled 32 0⟩) i out =
      verdictOf (Scan.violated (outputChecks w pi i out)) := by
  refine verdictOf_cons ?_ (verdictOf_cons ?_ (verdictOf_cons ?_ rfl))
  · simp
  · simp
  · simp

omit [Blake3] in
theorem verdictOf_append (left right : List String) :
    verdictOf (left ++ right) = (do verdictOf left; verdictOf right) := by
  cases left <;> rfl

/-- Summing the inputs while they are checked gives their exact sum or the first violation. -/
theorem checkInputs_eq (inputs : List InputWitness) :
    ∀ i valueIn : ℕ, checkInputs w pi i inputs valueIn = (do
      verdictOf (Scan.violated (Scan.each (inputChecks w pi) i inputs))
      .ok (valueIn + valueSum (inputs.map InputWitness.note))) := by
  induction inputs with
  | nil => exact fun _ _ => rfl
  | cons input rest ih =>
      intro i valueIn
      rw [checkInputs, Scan.each, Scan.violated_append, verdictOf_append, checkInput_eq]
      cases verdictOf (Scan.violated (inputChecks w pi i input)) with
      | error error => rfl
      | ok _ =>
          have total : valueSum ((input :: rest).map InputWitness.note) =
              input.note.value.toNat + valueSum (rest.map InputWitness.note) := rfl
          simp only [ih, total, Nat.add_assoc]
          rfl

theorem checkOutputs_eq (outputs : List Note) :
    ∀ i valueOut : ℕ,
      checkOutputs w pi (pi.nullifiers.headD ⟨Bytes.filled 32 0⟩) i outputs valueOut = (do
        verdictOf (Scan.violated (Scan.each (outputChecks w pi) i outputs))
        .ok (valueOut + valueSum outputs)) := by
  induction outputs with
  | nil => exact fun _ _ => rfl
  | cons out rest ih =>
      intro i valueOut
      rw [checkOutputs, Scan.each, Scan.violated_append, verdictOf_append, checkOutput_eq]
      cases verdictOf (Scan.violated (outputChecks w pi i out)) with
      | error error => rfl
      | ok _ =>
          have total : valueSum (out :: rest) = out.value.toNat + valueSum rest := rfl
          simp only [ih, total, Nat.add_assoc]
          rfl

/-- The check names the first violation in source order, and succeeds when there is none. -/
theorem checkSpendStatement_eq : checkSpendStatement w pi = verdictOf (violations w pi) := by
  have totals : (if w.mintValue.toNat ≥ maxMoney.toNat then
        .error (.unsatisfied "C6: mint value out of range")
      else if valueSum (w.inputs.map InputWitness.note) + w.mintValue.toNat ≠
          valueSum w.outputs then
        .error (.unsatisfied "C7: value imbalance")
      else .ok ()) = verdictOf (Scan.violated (totalChecks w)) := by
    refine verdictOf_cons ?_ (verdictOf_cons ?_ rfl)
    · simp [UInt64.lt_iff_toNat_lt]
    · simp
  unfold checkSpendStatement violations statementChecks
  simp only [Scan.violated_append, verdictOf_append, checkShape_eq, checkInputs_eq,
    checkOutputs_eq, ← totals, Nat.zero_add, bind_assoc]
  rfl

omit [Blake3] in
theorem verdictOf_eq_ok_iff {names : List String} : verdictOf names = .ok () ↔ names = [] := by
  cases names <;> simp [verdictOf, Scan.report, Except.mapError]

omit [Blake3] in
theorem verdictOf_eq_error_iff {names : List String} {name : String} :
    verdictOf names = .error (.unsatisfied name) ↔ Scan.report names = .error name := by
  cases names <;> simp [verdictOf, Scan.report, Except.mapError]

/-- The spend check reports exactly the first constraint that fails in source order, and
succeeds exactly when all of them hold. -/
theorem reports_first_violation :
    (∀ name, checkSpendStatement w pi = .error (.unsatisfied name) ↔
      ∃ before after, statementChecks w pi = before ++ (name, false) :: after ∧
        ∀ check ∈ before, check.2 = true) ∧
    (checkSpendStatement w pi = .ok () ↔ ∀ check ∈ statementChecks w pi, check.2 = true) := by
  rw [checkSpendStatement_eq]
  refine ⟨fun name => ?_, ?_⟩
  · rw [verdictOf_eq_error_iff, violations, Scan.report_violated_eq_error_iff]
  · rw [verdictOf_eq_ok_iff, violations, Scan.violated_eq_nil_iff]

end Checks

end ShieldedLedger
