import ShieldedLedger.ProverDev.Diagnosis
import ShieldedLedger.Tree.Binding

/-!
# Breaking one constraint

A satisfied statement is broken in one place at a time.  The check names the
constraint that was broken.  For seven of the twelve ways nothing else is violated, so
a check without that constraint would accept the broken statement; an amount that
is out of place also breaks the balance, which hides the missing constraint.
-/

namespace ShieldedLedger

section Blocks

variable [Blake3] {w : SpendWitness} {pi : SpendPublicInputs}

omit [Blake3] in
/-- Checks that report nothing are not violated. -/
theorem violated_eq_nil_of_verdictOf {checks : List (String × Bool)} {satisfied : Prop}
    (decided : verdictOf (Scan.violated checks) = .ok () ↔ satisfied) :
    Scan.violated checks = [] ↔ satisfied :=
  verdictOf_eq_ok_iff.symm.trans decided

theorem violated_inputChecks_iff {i : ℕ} {input : InputWitness} :
    Scan.violated (inputChecks w pi i input) = [] ↔ InputSatisfied w pi i input :=
  violated_eq_nil_of_verdictOf (by rw [← checkInput_eq, checkInput_ok_iff])

theorem violated_outputChecks_iff {i : ℕ} {out : Note} :
    Scan.violated (outputChecks w pi i out) = [] ↔ OutputSatisfied w pi i out :=
  violated_eq_nil_of_verdictOf (by rw [← checkOutput_eq, checkOutput_ok_iff])

/-- A constraint is violated by the shape, by an input, by an output or by the totals. -/
theorem mem_violations {name : String} :
    name ∈ violations w pi ↔
      (name, false) ∈ shapeChecks w pi ∨
      (∃ k input, w.inputs[k]? = some input ∧ (name, false) ∈ inputChecks w pi k input) ∨
      (∃ k out, w.outputs[k]? = some out ∧ (name, false) ∈ outputChecks w pi k out) ∨
      (name, false) ∈ totalChecks w := by
  rw [violations, Scan.mem_violated, statementChecks, List.mem_append, List.mem_append,
    List.mem_append, Scan.mem_each, Scan.mem_each]
  simp only [Nat.zero_add, or_assoc]

omit [Blake3] in
theorem violated_shapeChecks_iff :
    Scan.violated (shapeChecks w pi) = [] ↔
      (w.inputs.length = txInputs ∧ w.outputs.length = txOutputs) ∧
      (pi.nullifiers.length = txInputs ∧ pi.commitments.length = txOutputs) ∧
      pi.bindingDigest = w.bindingDigest :=
  violated_eq_nil_of_verdictOf (by rw [← checkShape_eq, checkShape_ok_iff])

/-- What is reported about the first input at fault. -/
theorem reported_of_input (shape : Scan.violated (shapeChecks w pi) = []) {i : ℕ}
    {input : InputWitness} (found : w.inputs[i]? = some input)
    (clean : ∀ k < i, ∀ other, w.inputs[k]? = some other → InputSatisfied w pi k other)
    {name : String} (reported : checkInput w pi i input = .error (.unsatisfied name)) :
    checkSpendStatement w pi = .error (.unsatisfied name) := by
  have first := Scan.violated_each_of_first (inputChecks w pi) found fun k below other earlier =>
    violated_inputChecks_iff.mpr (clean k below other earlier)
  rw [checkInput_eq] at reported
  rw [checkSpendStatement_eq, violations, statementChecks, Scan.violated_append,
    Scan.violated_append, Scan.violated_append, shape, first, List.nil_append, List.append_assoc,
    List.append_assoc, verdictOf_append, reported]
  rfl

/-- What is reported about the first output at fault when the inputs are in order. -/
theorem reported_of_output (shape : Scan.violated (shapeChecks w pi) = [])
    (inputs : ∀ k input, w.inputs[k]? = some input → InputSatisfied w pi k input) {j : ℕ}
    {out : Note} (found : w.outputs[j]? = some out)
    (clean : ∀ k < j, ∀ other, w.outputs[k]? = some other → OutputSatisfied w pi k other)
    {name : String}
    (reported : checkOutput w pi (pi.nullifiers.headD ⟨Bytes.filled 32 0⟩) j out =
      .error (.unsatisfied name)) :
    checkSpendStatement w pi = .error (.unsatisfied name) := by
  have before : Scan.violated (Scan.each (inputChecks w pi) 0 w.inputs) = [] := by
    apply Scan.violated_each_eq_nil
    intro k input member
    rw [Nat.zero_add]
    exact violated_inputChecks_iff.mpr (inputs k input member)
  have first := Scan.violated_each_of_first (outputChecks w pi) found fun k below other earlier =>
    violated_outputChecks_iff.mpr (clean k below other earlier)
  rw [checkOutput_eq] at reported
  rw [checkSpendStatement_eq, violations, statementChecks, Scan.violated_append,
    Scan.violated_append, Scan.violated_append, shape, before, first, List.nil_append,
    List.nil_append, List.append_assoc, verdictOf_append, reported]
  rfl

end Blocks

section Mutations

/-- One way to break a spend statement.  A position counts inputs or outputs. -/
inductive Mutation where
  | pathSiblings (i : ℕ) (siblings : List.Vector Bytes32 treeDepth)
  | anchorRoot (root : Bytes32)
  | nullifier (i : ℕ) (nf : Nullifier)
  | spenderTag (tag : Bytes32)
  | dummyValue (i : ℕ) (value : UInt64)
  | inputValue (i : ℕ) (value : UInt64)
  | outputValue (j : ℕ) (value : UInt64)
  | commitment (j : ℕ) (cm : Commitment)
  | outputRho (j : ℕ) (rho : Bytes32)
  | balance (j : ℕ) (value : UInt64)
  | bindingDigest (digest : Bytes32)
  | inputCount (count : ℕ)

namespace Mutation

/-- The constraint that is broken. -/
def constraint : Mutation → String
  | pathSiblings .. | anchorRoot _ => "C1: membership proof invalid"
  | nullifier .. => "C2: nullifier derivation mismatch"
  | spenderTag _ => "C3: note not owned by spender"
  | dummyValue .. => "C4: dummy note must have zero value"
  | inputValue .. => "C6: input value out of range"
  | outputValue .. => "C6: output value out of range"
  | commitment .. => "C5: output commitment mismatch"
  | outputRho .. => "C5: output rho derivation invalid"
  | balance .. => "C7: value imbalance"
  | bindingDigest _ => "C8: binding digest mismatch"
  | inputCount _ => "C0: wrong input/output arity"

/-- The value of a note replaced. -/
def revalue (value : UInt64) (note : Note) : Note := { note with value := value }

variable [Blake3]

/-- The witness with the mutation made, and the public inputs it is checked against:
those of the statement, altered or recomputed from the witness. -/
def apply (w : SpendWitness) (pi : SpendPublicInputs) :
    Mutation → SpendWitness × SpendPublicInputs
  | pathSiblings i siblings =>
      ({ w with inputs := w.inputs.modify i fun input =>
          { input with path := { input.path with siblings := siblings } } }, pi)
  | anchorRoot root => (w, { pi with anchor := { pi.anchor with root := root } })
  | nullifier i nf => (w, { pi with nullifiers := pi.nullifiers.set i nf })
  | spenderTag tag => ({ w with spenderAddrTag := tag }, pi)
  | dummyValue i value | inputValue i value =>
      let w : SpendWitness := { w with inputs := w.inputs.modify i fun input =>
        { input with note := revalue value input.note } }
      (w, publicInputs w pi.anchor)
  | outputValue j value | balance j value =>
      let w : SpendWitness := { w with outputs := w.outputs.modify j (revalue value) }
      (w, publicInputs w pi.anchor)
  | commitment j cm => (w, { pi with commitments := pi.commitments.set j cm })
  | outputRho j rho =>
      let w : SpendWitness := { w with outputs := w.outputs.modify j fun out =>
        { out with rho := rho } }
      (w, publicInputs w pi.anchor)
  | bindingDigest digest => (w, { pi with bindingDigest := digest })
  | inputCount count => ({ w with inputs := w.inputs.take count }, pi)

/-- The mutation changes what it is about: an existing position or a real input, and a
value that the constraint excludes.  Another path may still verify, so that is excluded
as well. -/
def Hits (w : SpendWitness) (pi : SpendPublicInputs) : Mutation → Prop
  | pathSiblings i siblings => ∃ input, w.inputs[i]? = some input ∧ input.isDummy = false ∧
      verifyPath input.note.commitment { input.path with siblings := siblings } pi.anchor.root =
        false
  | anchorRoot root => (∃ input ∈ w.inputs, input.isDummy = false) ∧ root ≠ pi.anchor.root
  | nullifier i nf => i < txInputs ∧ pi.nullifiers[i]? ≠ some nf
  | spenderTag tag => (∃ input ∈ w.inputs, input.isDummy = false) ∧ tag ≠ w.spenderAddrTag
  | dummyValue i value => value ≠ 0 ∧ ∃ input, w.inputs[i]? = some input ∧ input.isDummy = true
  | inputValue i value => maxMoney ≤ value ∧
      ∃ input, w.inputs[i]? = some input ∧ input.isDummy = false
  | outputValue j value => j < txOutputs ∧ maxMoney ≤ value
  | commitment j cm => j < txOutputs ∧ pi.commitments[j]? ≠ some cm
  | outputRho j rho => w.mintValue = 0 ∧ ∃ out, w.outputs[j]? = some out ∧ rho ≠ out.rho
  | balance j value => value < maxMoney ∧ ∃ out, w.outputs[j]? = some out ∧ value ≠ out.value
  | bindingDigest digest => digest ≠ pi.bindingDigest
  | inputCount count => count < txInputs

end Mutation

end Mutations

section Published

variable [Blake3] {w : SpendWitness} {pi : SpendPublicInputs}

/-- The nullifiers of a satisfied statement are those of its witness. -/
theorem Satisfied.nullifiers_eq (sat : Satisfied w pi) :
    pi.nullifiers = w.inputs.map fun input => input.note.nullifier w.spenderNk := by
  apply List.ext_getElem?
  intro i
  rw [List.getElem?_map]
  cases found : w.inputs[i]? with
  | some input => exact (sat.input i input found).nullifier
  | none =>
      rw [List.getElem?_eq_none_iff] at found
      rw [sat.inputs_length, ← sat.nullifiers_length] at found
      simpa using found

theorem Satisfied.exists_input (sat : Satisfied w pi) {i : ℕ} (inside : i < txInputs) :
    ∃ input, w.inputs[i]? = some input :=
  ⟨_, List.getElem?_eq_getElem (sat.inputs_length.symm ▸ inside : i < w.inputs.length)⟩

theorem Satisfied.exists_output (sat : Satisfied w pi) {j : ℕ} (inside : j < txOutputs) :
    ∃ out, w.outputs[j]? = some out :=
  ⟨_, List.getElem?_eq_getElem (sat.outputs_length.symm ▸ inside : j < w.outputs.length)⟩

theorem Satisfied.shape (sat : Satisfied w pi) : Scan.violated (shapeChecks w pi) = [] :=
  violated_shapeChecks_iff.mpr ⟨⟨sat.inputs_length, sat.outputs_length⟩,
    ⟨sat.nullifiers_length, sat.commitments_length⟩, sat.bindingDigest_eq⟩

theorem shape_published (inputs : w.inputs.length = txInputs)
    (outputs : w.outputs.length = txOutputs)
    (anchor : Anchor) : Scan.violated (shapeChecks w (publicInputs w anchor)) = [] :=
  violated_shapeChecks_iff.mpr ⟨⟨inputs, outputs⟩, ⟨by simpa [publicInputs] using inputs,
    by simpa [publicInputs] using outputs⟩, rfl⟩

theorem nullifier_published (anchor : Anchor) {i : ℕ} {input : InputWitness}
    (found : w.inputs[i]? = some input) :
    (publicInputs w anchor).nullifiers[i]? = some (input.note.nullifier w.spenderNk) := by
  simp [publicInputs, found]

theorem commitment_published (anchor : Anchor) {j : ℕ} {out : Note}
    (found : w.outputs[j]? = some out) :
    (publicInputs w anchor).commitments[j]? = some out.commitment := by
  simp [publicInputs, found]

/-- A satisfied statement is satisfied with the public inputs made from its witness. -/
theorem Satisfied.republished (sat : Satisfied w pi) : Satisfied w (publicInputs w pi.anchor) := by
  have nullifiers : (publicInputs w pi.anchor).nullifiers = pi.nullifiers := sat.nullifiers_eq.symm
  refine ⟨sat.inputs_length, sat.outputs_length, by simpa [publicInputs] using sat.inputs_length,
    by simpa [publicInputs] using sat.outputs_length, rfl, ?_, ?_, sat.mint_lt, sat.balance⟩
  · intro i input found
    have satisfied := sat.input i input found
    exact ⟨satisfied.dummy_value, satisfied.value_lt, satisfied.member, satisfied.owned,
      nullifier_published _ found⟩
  · intro j out found
    have satisfied := sat.output j out found
    refine ⟨satisfied.value_lt, commitment_published _ found, ?_⟩
    rw [nullifiers]
    exact satisfied.rho

end Published

section Isolated

variable [Blake3] {w : SpendWitness} {pi : SpendPublicInputs} {name c : String}

theorem not_mem_inputChecks {i : ℕ} {input : InputWitness}
    (satisfied : InputSatisfied w pi i input) :
    (name, false) ∉ inputChecks w pi i input := by
  intro member
  have clean := Scan.violated_eq_nil_iff.mp (violated_inputChecks_iff.mpr satisfied) _ member
  cases clean

theorem not_mem_outputChecks {j : ℕ} {out : Note} (satisfied : OutputSatisfied w pi j out) :
    (name, false) ∉ outputChecks w pi j out := by
  intro member
  have clean := Scan.violated_eq_nil_iff.mp (violated_outputChecks_iff.mpr satisfied) _ member
  cases clean

/-- An input that may only lack membership or ownership. -/
theorem name_of_mem_inputChecks {i : ℕ} {input : InputWitness}
    (member : (name, false) ∈ inputChecks w pi i input)
    (dummy_value : input.isDummy = true → input.note.value = 0)
    (value_lt : input.note.value < maxMoney)
    (nullifier : pi.nullifiers[i]? = some (input.note.nullifier w.spenderNk)) :
    (name = "C1: membership proof invalid" ∧ input.isDummy = false ∧
        verifyPath input.note.commitment input.path pi.anchor.root = false) ∨
      (name = "C3: note not owned by spender" ∧ input.isDummy = false ∧
        input.note.addrTag ≠ w.spenderAddrTag) := by
  have inRange : ¬maxMoney ≤ input.note.value := UInt64.not_le.mpr value_lt
  cases real : input.isDummy with
  | true =>
      have positive : ¬maxMoney = 0 := by decide
      simp [inputChecks, real, dummy_value real, nullifier, positive] at member
  | false => simpa [inputChecks, real, nullifier, inRange] using member

/-- An output that may only lack its commitment or its derivation. -/
theorem name_of_mem_outputChecks {j : ℕ} {out : Note}
    (member : (name, false) ∈ outputChecks w pi j out) (value_lt : out.value < maxMoney) :
    (name = "C5: output commitment mismatch" ∧ some out.commitment ≠ pi.commitments[j]?) ∨
      (name = "C5: output rho derivation invalid" ∧ w.mintValue = 0 ∧
        out.rho ≠ rhoTransfer (pi.nullifiers.headD ⟨Bytes.filled 32 0⟩) (UInt8.ofNat j)) := by
  have inRange : ¬maxMoney ≤ out.value := UInt64.not_le.mpr value_lt
  simpa [outputChecks, inRange] using member

omit [Blake3] in
theorem not_mem_totalChecks (mint_lt : w.mintValue < maxMoney)
    (balance : valueSum (w.inputs.map InputWitness.note) + w.mintValue.toNat = valueSum w.outputs) :
    (name, false) ∉ totalChecks w := by
  have inRange : ¬maxMoney ≤ w.mintValue := UInt64.not_le.mpr mint_lt
  simp [totalChecks, inRange, balance]

/-- The violations are one constraint if every block violates that one at most. -/
theorem eq_of_mem_violations (shape : (name, false) ∈ shapeChecks w pi → name = c)
    (input : ∀ k input, w.inputs[k]? = some input → (name, false) ∈ inputChecks w pi k input →
      name = c)
    (output : ∀ k out, w.outputs[k]? = some out → (name, false) ∈ outputChecks w pi k out →
      name = c)
    (total : (name, false) ∈ totalChecks w → name = c) (member : name ∈ violations w pi) :
    name = c := by
  rcases mem_violations.mp member with inShape | ⟨k, found, at_k, inInput⟩ |
    ⟨k, found, at_k, inOutput⟩ | inTotal
  · exact shape inShape
  · exact input k found at_k inInput
  · exact output k found at_k inOutput
  · exact total inTotal

/-- A statement that violates one constraint only is reported for it. -/
theorem reported_of_isolated (only : ∀ name ∈ violations w pi, name = c)
    (broken : c ∈ violations w pi) :
    checkSpendStatement w pi = .error (.unsatisfied c) := by
  rw [checkSpendStatement_eq]
  cases found : violations w pi with
  | nil => simp [found] at broken
  | cons first rest =>
      have named : first = c := only first (by simp [found])
      rw [named]
      rfl

omit [Blake3] in
theorem map_modify_eq {α β : Type} (items : List α) (i : ℕ) {change : α → α} {read : α → β}
    (same : ∀ item, read (change item) = read item) :
    (items.modify i change).map read = items.map read := by
  apply List.ext_getElem?
  intro k
  rw [List.getElem?_map, List.getElem?_map, List.getElem?_modify]
  split
  · cases items[k]? <;> simp [same]
  · simp

end Isolated

section Isolating

/-- Replacing an item leaves the items before it alone. -/
theorem getElem?_modify_of_lt {α : Type} {items : List α} {change : α → α} {i k : ℕ} {other : α}
    (below : k < i) (earlier : (items.modify i change)[k]? = some other) :
    items[k]? = some other := by
  rwa [List.getElem?_modify_ne _ _ (Nat.ne_of_gt below)] at earlier

/-- An item of a changed list is an item of the list or the changed item. -/
theorem exists_of_getElem?_modify {α : Type} {items : List α} {change : α → α} {i k : ℕ} {item : α}
    (found : (items.modify i change)[k]? = some item) :
    ∃ before, items[k]? = some before ∧ (item = before ∨ i = k ∧ item = change before) := by
  rw [List.getElem?_modify] at found
  cases original : items[k]? with
  | none => simp [original] at found
  | some before =>
      refine ⟨before, rfl, ?_⟩
      rw [original] at found
      split at found
      · exact .inr ⟨‹_›, (Option.some.inj found).symm⟩
      · exact .inl (Option.some.inj found).symm

/-- An amount put in place of another changes the sum by the difference. -/
theorem valueSum_revalue {notes : List Note} {j : ℕ} {out : Note} (found : notes[j]? = some out)
    (value : UInt64) :
    valueSum (notes.modify j (Mutation.revalue value)) + out.value.toNat =
      valueSum notes + value.toNat := by
  induction notes generalizing j with
  | nil => cases found
  | cons first rest ih =>
      cases j with
      | zero =>
          obtain rfl : first = out := by simpa using found
          simp [valueSum, Mutation.revalue]
          omega
      | succ j =>
          have later := ih (j := j) (by simpa using found)
          simp [valueSum] at later ⊢
          omega

variable [Blake3] {w : SpendWitness} {pi : SpendPublicInputs} {name : String}
  (sat : Satisfied w pi)
include sat

theorem Satisfied.not_mem_shapeChecks : (name, false) ∉ shapeChecks w pi := fun member => by
  cases Scan.violated_eq_nil_iff.mp sat.shape _ member

theorem Satisfied.not_mem_totalChecks : (name, false) ∉ totalChecks w :=
  ShieldedLedger.not_mem_totalChecks sat.mint_lt sat.balance

omit sat in
theorem nullifiers_outputs (sat : Satisfied w pi) (outputs : List Note) (anchor : Anchor) :
    (publicInputs { w with outputs := outputs } anchor).nullifiers = pi.nullifiers :=
  sat.nullifiers_eq.symm

/-- The inputs stay in order when only outputs change. -/
theorem inputs_of_outputs (outputs : List Note) (k : ℕ) (input : InputWitness)
    (found : w.inputs[k]? = some input) :
    InputSatisfied { w with outputs := outputs }
      (publicInputs { w with outputs := outputs } pi.anchor) k input := by
  have before := sat.input k input found
  exact ⟨before.dummy_value, before.value_lt, before.member, before.owned,
    nullifier_published (w := { w with outputs := outputs }) pi.anchor found⟩

/-- The shape stays in order when only outputs change. -/
theorem not_mem_shapeChecks_of_outputs (outputs : List Note) (length : outputs.length = txOutputs) :
    (name, false) ∉ shapeChecks { w with outputs := outputs }
      (publicInputs { w with outputs := outputs } pi.anchor) := by
  intro inShape
  have shape :=
    shape_published (w := { w with outputs := outputs }) sat.inputs_length length pi.anchor
  cases Scan.violated_eq_nil_iff.mp shape _ inShape

namespace Mutation

theorem isolated_pathSiblings {i : ℕ} {siblings : List.Vector Bytes32 treeDepth}
    (member : name ∈ violations ((pathSiblings i siblings).apply w pi).1
      ((pathSiblings i siblings).apply w pi).2) : name = "C1: membership proof invalid" := by
  refine eq_of_mem_violations ?_ ?_ ?_ ?_ member
  · intro inShape
    have unchanged : (name, false) ∈ shapeChecks w pi := by simpa [apply, shapeChecks] using inShape
    exact absurd unchanged sat.not_mem_shapeChecks
  · intro k input found inInput
    obtain ⟨before, original, same | ⟨-, same⟩⟩ := exists_of_getElem?_modify found
    · obtain rfl := same
      have satisfied := sat.input k input original
      exact absurd inInput (not_mem_inputChecks ⟨satisfied.dummy_value, satisfied.value_lt,
        satisfied.member, satisfied.owned, satisfied.nullifier⟩)
    · have satisfied := sat.input k before original
      obtain rfl := same
      rcases name_of_mem_inputChecks inInput satisfied.dummy_value satisfied.value_lt
        satisfied.nullifier with ⟨rfl, -⟩ | ⟨-, real, foreign⟩
      · rfl
      · exact absurd (satisfied.owned real) foreign
  · intro k out found inOutput
    have satisfied := sat.output k out found
    exact absurd inOutput (not_mem_outputChecks
      ⟨satisfied.value_lt, satisfied.commitment, satisfied.rho⟩)
  · intro inTotal
    refine absurd inTotal (ShieldedLedger.not_mem_totalChecks sat.mint_lt ?_)
    have notes : (w.inputs.modify i fun input : InputWitness =>
        { input with path := { input.path with siblings := siblings } }).map InputWitness.note =
          w.inputs.map InputWitness.note := map_modify_eq _ _ fun _ => rfl
    rw [apply, notes]
    exact sat.balance

theorem isolated_anchorRoot {root : Bytes32}
    (member : name ∈ violations ((anchorRoot root).apply w pi).1
      ((anchorRoot root).apply w pi).2) : name = "C1: membership proof invalid" := by
  refine eq_of_mem_violations ?_ ?_ ?_ ?_ member
  · exact fun inShape => absurd inShape sat.not_mem_shapeChecks
  · intro k input found inInput
    have satisfied := sat.input k input found
    rcases name_of_mem_inputChecks inInput satisfied.dummy_value satisfied.value_lt
      satisfied.nullifier with ⟨rfl, -⟩ | ⟨-, real, foreign⟩
    · rfl
    · exact absurd (satisfied.owned real) foreign
  · intro k out found inOutput
    have satisfied := sat.output k out found
    exact absurd inOutput (not_mem_outputChecks
      ⟨satisfied.value_lt, satisfied.commitment, satisfied.rho⟩)
  · exact fun inTotal => absurd inTotal sat.not_mem_totalChecks

theorem isolated_spenderTag {tag : Bytes32}
    (member : name ∈ violations ((spenderTag tag).apply w pi).1
      ((spenderTag tag).apply w pi).2) : name = "C3: note not owned by spender" := by
  refine eq_of_mem_violations ?_ ?_ ?_ ?_ member
  · exact fun inShape => absurd inShape sat.not_mem_shapeChecks
  · intro k input found inInput
    have satisfied := sat.input k input found
    rcases name_of_mem_inputChecks inInput satisfied.dummy_value satisfied.value_lt
      satisfied.nullifier with ⟨-, real, outside⟩ | ⟨rfl, -⟩
    · exact absurd ((satisfied.member real).symm.trans outside) nofun
    · rfl
  · intro k out found inOutput
    have satisfied := sat.output k out found
    exact absurd inOutput (not_mem_outputChecks
      ⟨satisfied.value_lt, satisfied.commitment, satisfied.rho⟩)
  · exact fun inTotal => absurd inTotal sat.not_mem_totalChecks

theorem isolated_commitment {j : ℕ} {cm : Commitment}
    (member : name ∈ violations ((commitment j cm).apply w pi).1
      ((commitment j cm).apply w pi).2) : name = "C5: output commitment mismatch" := by
  refine eq_of_mem_violations ?_ ?_ ?_ ?_ member
  · intro inShape
    have unchanged : (name, false) ∈ shapeChecks w pi := by simpa [apply, shapeChecks] using inShape
    exact absurd unchanged sat.not_mem_shapeChecks
  · intro k input found inInput
    have satisfied := sat.input k input found
    exact absurd inInput (not_mem_inputChecks ⟨satisfied.dummy_value, satisfied.value_lt,
      satisfied.member, satisfied.owned, satisfied.nullifier⟩)
  · intro k out found inOutput
    have satisfied := sat.output k out found
    rcases name_of_mem_outputChecks inOutput satisfied.value_lt with ⟨rfl, -⟩ | ⟨-, transfer, other⟩
    · rfl
    · exact absurd (satisfied.rho transfer) other
  · exact fun inTotal => absurd inTotal sat.not_mem_totalChecks

theorem isolated_outputRho {j : ℕ} {rho : Bytes32}
    (member : name ∈ violations ((outputRho j rho).apply w pi).1
      ((outputRho j rho).apply w pi).2) : name = "C5: output rho derivation invalid" := by
  refine eq_of_mem_violations ?_ ?_ ?_ ?_ member
  · exact fun inShape => absurd inShape
      (not_mem_shapeChecks_of_outputs sat _ (by simpa using sat.outputs_length))
  · intro k input found inInput
    exact absurd inInput (not_mem_inputChecks (inputs_of_outputs sat _ k input found))
  · intro k out found inOutput
    obtain ⟨before, original, same⟩ := exists_of_getElem?_modify found
    have small : out.value < maxMoney := by
      have satisfied := (sat.output k before original).value_lt
      rcases same with rfl | ⟨-, rfl⟩ <;> exact satisfied
    rcases name_of_mem_outputChecks inOutput small with ⟨-, mismatch⟩ | ⟨rfl, -⟩
    · exact absurd (commitment_published _ found).symm mismatch
    · rfl
  · intro inTotal
    have values : (w.outputs.modify j fun out : Note => { out with rho := rho }).map
        (fun out => out.value.toNat) = w.outputs.map fun out => out.value.toNat :=
      map_modify_eq _ _ fun _ => rfl
    refine absurd inTotal (ShieldedLedger.not_mem_totalChecks sat.mint_lt ?_)
    exact sat.balance.trans (congrArg List.sum values.symm)

theorem isolated_balance {j : ℕ} {value : UInt64} (inRange : value < maxMoney)
    (member : name ∈ violations ((balance j value).apply w pi).1
      ((balance j value).apply w pi).2) : name = "C7: value imbalance" := by
  refine eq_of_mem_violations ?_ ?_ ?_ ?_ member
  · exact fun inShape => absurd inShape
      (not_mem_shapeChecks_of_outputs sat _ (by simpa using sat.outputs_length))
  · intro k input found inInput
    exact absurd inInput (not_mem_inputChecks (inputs_of_outputs sat _ k input found))
  · intro k out found inOutput
    obtain ⟨before, original, same⟩ := exists_of_getElem?_modify found
    have satisfied := sat.output k before original
    have small : out.value < maxMoney := by
      rcases same with rfl | ⟨-, rfl⟩
      · exact satisfied.value_lt
      · exact inRange
    have derived : out.rho = before.rho := by rcases same with rfl | ⟨-, rfl⟩ <;> rfl
    rcases name_of_mem_outputChecks inOutput small with ⟨-, mismatch⟩ | ⟨-, transfer, other⟩
    · exact absurd (commitment_published _ found).symm mismatch
    · refine absurd ?_ other
      rw [derived, satisfied.rho transfer, sat.nullifiers_eq]
      rfl
  · intro inTotal
    rcases (by simpa [totalChecks, apply] using inTotal) with ⟨-, outside⟩ | ⟨rfl, -⟩
    · exact absurd sat.mint_lt (of_decide_eq_false outside)
    · rfl

theorem isolated_bindingDigest {digest : Bytes32}
    (member : name ∈ violations ((bindingDigest digest).apply w pi).1
      ((bindingDigest digest).apply w pi).2) : name = "C8: binding digest mismatch" := by
  refine eq_of_mem_violations ?_ ?_ ?_ ?_ member
  · intro inShape
    have lengths := sat.inputs_length
    simp [apply, shapeChecks, sat.inputs_length, sat.outputs_length, sat.nullifiers_length,
      sat.commitments_length] at inShape
    exact inShape.1
  · intro k input found inInput
    have satisfied := sat.input k input found
    exact absurd inInput (not_mem_inputChecks ⟨satisfied.dummy_value, satisfied.value_lt,
      satisfied.member, satisfied.owned, satisfied.nullifier⟩)
  · intro k out found inOutput
    have satisfied := sat.output k out found
    exact absurd inOutput (not_mem_outputChecks
      ⟨satisfied.value_lt, satisfied.commitment, satisfied.rho⟩)
  · exact fun inTotal => absurd inTotal sat.not_mem_totalChecks

end Mutation

end Isolating

section Caught

variable [Blake3] {w : SpendWitness} {pi : SpendPublicInputs} {name : String}
  (sat : Satisfied w pi)
include sat

namespace Mutation

theorem caught_nullifier {i : ℕ} {nf : Nullifier} (hits : (nullifier i nf).Hits w pi) :
    checkSpendStatement ((nullifier i nf).apply w pi).1 ((nullifier i nf).apply w pi).2 =
      .error (.unsatisfied "C2: nullifier derivation mismatch") := by
  obtain ⟨inside, different⟩ := hits
  obtain ⟨input, found⟩ := sat.exists_input inside
  have satisfied := sat.input i input found
  have mismatch : ¬some (input.note.nullifier w.spenderNk) = (pi.nullifiers.set i nf)[i]? := by
    rw [List.getElem?_set_self (sat.nullifiers_length.symm ▸ inside), ← satisfied.nullifier]
    exact different
  refine reported_of_input (violated_shapeChecks_iff.mpr ?_) found ?_ ?_
  · simpa [apply] using violated_shapeChecks_iff.mp sat.shape
  · intro k below other earlier
    have before := sat.input k other earlier
    refine ⟨before.dummy_value, before.value_lt, before.member, before.owned, ?_⟩
    rw [apply, List.getElem?_set_ne (Nat.ne_of_gt below), before.nullifier]
  · cases real : input.isDummy with
    | true =>
        have positive : ¬maxMoney = 0 := by decide
        simp [apply, checkInput, real, satisfied.dummy_value real, positive, mismatch]
    | false =>
        simp [apply, checkInput, real, satisfied.value_lt, satisfied.member real,
          satisfied.owned real, mismatch]

/-- An input at fault for its value is the first one when only its value has changed. -/
theorem caught_inputRevalued {i : ℕ} {input : InputWitness} (found : w.inputs[i]? = some input)
    {value : UInt64} {name : String}
    (reported : ∀ pi, checkInput w pi i { input with note := revalue value input.note } =
      .error (.unsatisfied name)) :
    checkSpendStatement ((inputValue i value).apply w pi).1
      ((inputValue i value).apply w pi).2 = .error (.unsatisfied name) := by
  have here : ((inputValue i value).apply w pi).1.inputs[i]? =
      some { input with note := revalue value input.note } := by
    simp [apply, found]
  refine reported_of_input (w := ((inputValue i value).apply w pi).1)
    (shape_published (w := ((inputValue i value).apply w pi).1) ?_ sat.outputs_length _) here ?_
    (reported _)
  · simpa [apply] using sat.inputs_length
  · intro k below other earlier
    have before := sat.input k other (getElem?_modify_of_lt below earlier)
    exact ⟨before.dummy_value, before.value_lt, before.member, before.owned,
      nullifier_published _ earlier⟩

theorem caught_dummyValue {i : ℕ} {value : UInt64} (hits : (dummyValue i value).Hits w pi) :
    checkSpendStatement ((dummyValue i value).apply w pi).1 ((dummyValue i value).apply w pi).2 =
      .error (.unsatisfied "C4: dummy note must have zero value") := by
  obtain ⟨nonzero, input, found, dummy⟩ := hits
  refine caught_inputRevalued sat found fun pi => ?_
  simp [checkInput, revalue, dummy, nonzero]

theorem caught_inputValue {i : ℕ} {value : UInt64} (hits : (inputValue i value).Hits w pi) :
    checkSpendStatement ((inputValue i value).apply w pi).1 ((inputValue i value).apply w pi).2 =
      .error (.unsatisfied "C6: input value out of range") := by
  obtain ⟨large, input, found, real⟩ := hits
  refine caught_inputRevalued sat found fun pi => ?_
  simp [checkInput, revalue, real, large]

theorem caught_outputValue {j : ℕ} {value : UInt64} (hits : (outputValue j value).Hits w pi) :
    checkSpendStatement ((outputValue j value).apply w pi).1 ((outputValue j value).apply w pi).2 =
      .error (.unsatisfied "C6: output value out of range") := by
  obtain ⟨inside, large⟩ := hits
  obtain ⟨out, found⟩ := sat.exists_output inside
  set changed : SpendWitness := { w with outputs := w.outputs.modify j (revalue value) }
  have here : changed.outputs[j]? = some (revalue value out) := by
    simp [changed, found]
  refine reported_of_output (w := changed) (shape_published (w := changed) sat.inputs_length
      (by simpa [changed] using sat.outputs_length) pi.anchor)
    (inputs_of_outputs sat _) here ?_ (by simp [checkOutput, revalue, large])
  intro k below other earlier
  have before := sat.output k other (getElem?_modify_of_lt below earlier)
  refine ⟨before.value_lt, commitment_published _ earlier, fun transfer => ?_⟩
  rw [before.rho transfer, nullifiers_outputs sat]

theorem caught_inputCount {count : ℕ} (hits : (inputCount count).Hits w pi) :
    checkSpendStatement ((inputCount count).apply w pi).1 ((inputCount count).apply w pi).2 =
      .error (.unsatisfied "C0: wrong input/output arity") := by
  have short : ¬min count txInputs = txInputs := by
    rw [min_eq_left (Nat.le_of_lt hits)]
    exact Nat.ne_of_lt hits
  simp [checkSpendStatement, checkShape, apply, sat.inputs_length, short, bind, Except.bind]

end Mutation

end Caught

section Broken

variable [Blake3] {w : SpendWitness} {pi : SpendPublicInputs} {name : String}
  (sat : Satisfied w pi)
include sat

omit sat in
theorem mem_violations_of_imbalance
    (unbalanced : valueSum (w.inputs.map InputWitness.note) + w.mintValue.toNat ≠
      valueSum w.outputs) : "C7: value imbalance" ∈ violations w pi :=
  mem_violations.mpr (.inr (.inr (.inr (by simpa [totalChecks] using unbalanced))))

/-- Another amount in one output breaks the balance. -/
theorem Satisfied.imbalance_of_output {j : ℕ} {value : UInt64} {out : Note}
    (found : w.outputs[j]? = some out) (different : value ≠ out.value) :
    valueSum (w.inputs.map InputWitness.note) + w.mintValue.toNat ≠
      valueSum (w.outputs.modify j (Mutation.revalue value)) := by
  have moved := valueSum_revalue found value
  have balance := sat.balance
  have amounts : value.toNat ≠ out.value.toNat := fun same => different (UInt64.toNat_inj.mp same)
  omega

/-- Another amount in one input breaks the balance. -/
theorem Satisfied.imbalance_of_input {i : ℕ} {value : UInt64} {input : InputWitness}
    (found : w.inputs[i]? = some input) (different : value ≠ input.note.value) :
    valueSum ((w.inputs.modify i fun input =>
        { input with note := Mutation.revalue value input.note }).map InputWitness.note) +
      w.mintValue.toNat ≠ valueSum w.outputs := by
  have notes : (w.inputs.modify i fun input =>
      { input with note := Mutation.revalue value input.note }).map InputWitness.note =
        (w.inputs.map InputWitness.note).modify i (Mutation.revalue value) := by
    apply List.ext_getElem?
    intro k
    rw [List.getElem?_map, List.getElem?_modify, List.getElem?_modify, List.getElem?_map]
    split <;> cases w.inputs[k]? <;> rfl
  have noteAt : (w.inputs.map InputWitness.note)[i]? = some input.note := by simp [found]
  have moved := valueSum_revalue noteAt value
  have balance := sat.balance
  have amounts : value.toNat ≠ input.note.value.toNat := fun same =>
    different (UInt64.toNat_inj.mp same)
  rw [notes]
  omega

namespace Mutation

omit sat in
theorem broken_pathSiblings {i : ℕ} {siblings : List.Vector Bytes32 treeDepth}
    (hits : (pathSiblings i siblings).Hits w pi) :
    "C1: membership proof invalid" ∈ violations ((pathSiblings i siblings).apply w pi).1
      ((pathSiblings i siblings).apply w pi).2 := by
  obtain ⟨input, found, real, outside⟩ := hits
  have here : ((pathSiblings i siblings).apply w pi).1.inputs[i]? =
      some { input with path := { input.path with siblings := siblings } } := by
    simp [apply, found]
  refine mem_violations.mpr (.inr (.inl ⟨i, _, here, ?_⟩))
  simp [inputChecks, apply, real, outside]

theorem broken_anchorRoot {root : Bytes32} (hits : (anchorRoot root).Hits w pi) :
    "C1: membership proof invalid" ∈ violations ((anchorRoot root).apply w pi).1
      ((anchorRoot root).apply w pi).2 := by
  obtain ⟨⟨input, member, real⟩, other⟩ := hits
  obtain ⟨i, found⟩ := List.mem_iff_getElem?.mp member
  have verified := (sat.input i input found).member real
  have outside : verifyPath input.note.commitment input.path root = false := by
    rw [verifyPath, beq_iff_eq] at verified
    rw [verifyPath, verified]
    simpa using other.symm
  refine mem_violations.mpr (.inr (.inl ⟨i, input, found, ?_⟩))
  simp [inputChecks, apply, real, outside]

theorem broken_spenderTag {tag : Bytes32} (hits : (spenderTag tag).Hits w pi) :
    "C3: note not owned by spender" ∈ violations ((spenderTag tag).apply w pi).1
      ((spenderTag tag).apply w pi).2 := by
  obtain ⟨⟨input, member, real⟩, other⟩ := hits
  obtain ⟨i, found⟩ := List.mem_iff_getElem?.mp member
  have owned := (sat.input i input found).owned real
  refine mem_violations.mpr (.inr (.inl ⟨i, input, found, ?_⟩))
  simp [inputChecks, apply, real, owned, other.symm]

theorem broken_commitment {j : ℕ} {cm : Commitment} (hits : (commitment j cm).Hits w pi) :
    "C5: output commitment mismatch" ∈ violations ((commitment j cm).apply w pi).1
      ((commitment j cm).apply w pi).2 := by
  obtain ⟨inside, other⟩ := hits
  obtain ⟨out, found⟩ := sat.exists_output inside
  have published := (sat.output j out found).commitment
  have here : (pi.commitments.set j cm)[j]? = some cm :=
    List.getElem?_set_self (sat.commitments_length.symm ▸ inside)
  refine mem_violations.mpr (.inr (.inr (.inl ⟨j, out, found, ?_⟩)))
  rw [published] at other
  simpa [outputChecks, apply, here] using fun same => other (congrArg some same)

theorem broken_outputRho {j : ℕ} {rho : Bytes32} (hits : (outputRho j rho).Hits w pi) :
    "C5: output rho derivation invalid" ∈ violations ((outputRho j rho).apply w pi).1
      ((outputRho j rho).apply w pi).2 := by
  obtain ⟨transfer, out, found, other⟩ := hits
  have derived := (sat.output j out found).rho transfer
  have here : ((outputRho j rho).apply w pi).1.outputs[j]? = some { out with rho := rho } := by
    simp [apply, found]
  refine mem_violations.mpr (.inr (.inr (.inl ⟨j, _, here, ?_⟩)))
  rw [derived, ← nullifiers_outputs sat _ pi.anchor] at other
  simpa [outputChecks, apply, transfer] using other

theorem broken_balance {j : ℕ} {value : UInt64} (hits : (balance j value).Hits w pi) :
    "C7: value imbalance" ∈ violations ((balance j value).apply w pi).1
      ((balance j value).apply w pi).2 := by
  obtain ⟨-, out, found, different⟩ := hits
  exact mem_violations_of_imbalance (sat.imbalance_of_output found different)

theorem broken_bindingDigest {digest : Bytes32} (hits : (bindingDigest digest).Hits w pi) :
    "C8: binding digest mismatch" ∈ violations ((bindingDigest digest).apply w pi).1
      ((bindingDigest digest).apply w pi).2 := by
  have other : digest ≠ w.bindingDigest := sat.bindingDigest_eq ▸ hits
  exact mem_violations.mpr (.inl (by simpa [shapeChecks, apply] using other))

/-- A broken statement is reported for the constraint that was broken. -/
theorem caught (m : Mutation) (hits : m.Hits w pi) :
    checkSpendStatement (m.apply w pi).1 (m.apply w pi).2 =
      .error (.unsatisfied m.constraint) := by
  cases m with
  | pathSiblings i siblings =>
      exact reported_of_isolated (fun _ => isolated_pathSiblings sat)
        (broken_pathSiblings hits)
  | anchorRoot root =>
      exact reported_of_isolated (fun _ => isolated_anchorRoot sat)
        (broken_anchorRoot sat hits)
  | nullifier i nf => exact caught_nullifier sat hits
  | spenderTag tag =>
      exact reported_of_isolated (fun _ => isolated_spenderTag sat)
        (broken_spenderTag sat hits)
  | dummyValue i value => exact caught_dummyValue sat hits
  | inputValue i value => exact caught_inputValue sat hits
  | outputValue j value => exact caught_outputValue sat hits
  | commitment j cm =>
      exact reported_of_isolated (fun _ => isolated_commitment sat)
        (broken_commitment sat hits)
  | outputRho j rho =>
      exact reported_of_isolated (fun _ => isolated_outputRho sat)
        (broken_outputRho sat hits)
  | balance j value =>
      exact reported_of_isolated (fun _ => isolated_balance sat hits.1)
        (broken_balance sat hits)
  | bindingDigest digest =>
      exact reported_of_isolated (fun _ => isolated_bindingDigest sat)
        (broken_bindingDigest sat hits)
  | inputCount count => exact caught_inputCount sat hits

end Mutation

end Broken

section Removed

variable [Blake3] {w : SpendWitness} {pi : SpendPublicInputs} {name : String}

/-- The check with one constraint removed. -/
def checkWithout (removed : String) (w : SpendWitness) (pi : SpendPublicInputs) :
    Except ProveError Unit :=
  verdictOf (Scan.violated ((statementChecks w pi).filter fun check => check.1 ≠ removed))

theorem checkWithout_eq_ok_iff :
    checkWithout name w pi = .ok () ↔ ∀ other ∈ violations w pi, other = name := by
  rw [checkWithout, verdictOf_eq_ok_iff, Scan.violated_filter, List.filter_eq_nil_iff]
  simp [violations]

/-- Whether nothing but the constraint is broken: a tampered first nullifier also breaks
the derivation of the outputs from it, a dropped input also breaks the balance if it
carries value, and so does every amount put in place of another. -/
def Mutation.Isolating (w : SpendWitness) : Mutation → Prop
  | nullifier i nf => i = 0 → w.mintValue = 0 →
      ∀ j out, w.outputs[j]? = some out → out.rho = rhoTransfer nf (UInt8.ofNat j)
  | inputCount count => valueSum ((w.inputs.drop count).map InputWitness.note) = 0
  | dummyValue .. | inputValue .. | outputValue .. => False
  | pathSiblings .. | anchorRoot _ | spenderTag _ | commitment .. | outputRho .. | balance ..
  | bindingDigest _ => True

omit [Blake3] in
theorem valueSum_take_add_drop (inputs : List InputWitness) (count : ℕ) :
    valueSum (inputs.map InputWitness.note) =
      valueSum ((inputs.take count).map InputWitness.note) +
        valueSum ((inputs.drop count).map InputWitness.note) := by
  conv_lhs => rw [← List.take_append_drop count inputs]
  simp [valueSum]

namespace Mutation

theorem headD_nullifier_succ {i : ℕ} {nf : Nullifier} {default : Nullifier} :
    ((nullifier (i + 1) nf).apply w pi).2.nullifiers.headD default =
      pi.nullifiers.headD default := by
  rw [apply]
  cases pi.nullifiers <;> rfl

end Mutation

variable (sat : Satisfied w pi)
include sat

namespace Mutation

theorem headD_nullifier_zero {nf : Nullifier} {default : Nullifier} :
    ((nullifier 0 nf).apply w pi).2.nullifiers.headD default = nf := by
  have length := sat.nullifiers_length
  rw [apply]
  cases found : pi.nullifiers with
  | nil => simp [found, txInputs] at length
  | cons first rest => rfl

theorem isolated_nullifier {i : ℕ} {nf : Nullifier} (isolating : (nullifier i nf).Isolating w)
    (hits : (nullifier i nf).Hits w pi)
    (member : name ∈ violations ((nullifier i nf).apply w pi).1
      ((nullifier i nf).apply w pi).2) : name = "C2: nullifier derivation mismatch" := by
  refine eq_of_mem_violations ?_ ?_ ?_ ?_ member
  · intro inShape
    have unchanged : (name, false) ∈ shapeChecks w pi := by simpa [apply, shapeChecks] using inShape
    exact absurd unchanged sat.not_mem_shapeChecks
  · intro k input found inInput
    have satisfied := sat.input k input found
    have inRange : ¬maxMoney ≤ input.note.value := UInt64.not_le.mpr satisfied.value_lt
    cases real : input.isDummy with
    | true =>
        have positive : ¬maxMoney = 0 := by decide
        simp [inputChecks, apply, real, satisfied.dummy_value real, positive] at inInput
        exact inInput.1
    | false =>
        simp [inputChecks, apply, real, inRange, satisfied.member real, satisfied.owned real]
          at inInput
        exact inInput.1
  · intro k out found inOutput
    have satisfied := sat.output k out found
    rcases name_of_mem_outputChecks inOutput satisfied.value_lt with
      ⟨-, mismatch⟩ | ⟨-, transfer, other⟩
    · exact absurd satisfied.commitment.symm mismatch
    · refine absurd ?_ other
      cases i with
      | zero => rw [headD_nullifier_zero sat, isolating rfl transfer k out found]
      | succ i => rw [headD_nullifier_succ, satisfied.rho transfer]
  · exact fun inTotal => absurd inTotal sat.not_mem_totalChecks

theorem isolated_inputCount {count : ℕ} (isolating : (inputCount count).Isolating w)
    (member : name ∈ violations ((inputCount count).apply w pi).1
      ((inputCount count).apply w pi).2) : name = "C0: wrong input/output arity" := by
  refine eq_of_mem_violations ?_ ?_ ?_ ?_ member
  · intro inShape
    simp [apply, shapeChecks, sat.outputs_length, sat.nullifiers_length, sat.commitments_length,
      sat.bindingDigest_eq] at inShape
    exact inShape.1
  · intro k input found inInput
    have kept : w.inputs[k]? = some input := by
      rw [apply, List.getElem?_take] at found
      split at found
      · exact found
      · cases found
    have satisfied := sat.input k input kept
    exact absurd inInput (not_mem_inputChecks ⟨satisfied.dummy_value, satisfied.value_lt,
      satisfied.member, satisfied.owned, satisfied.nullifier⟩)
  · intro k out found inOutput
    have satisfied := sat.output k out found
    exact absurd inOutput (not_mem_outputChecks
      ⟨satisfied.value_lt, satisfied.commitment, satisfied.rho⟩)
  · intro inTotal
    refine absurd inTotal (ShieldedLedger.not_mem_totalChecks sat.mint_lt ?_)
    have whole := valueSum_take_add_drop w.inputs count
    rw [show valueSum ((w.inputs.drop count).map InputWitness.note) = 0 from isolating] at whole
    have balance := sat.balance
    rw [whole] at balance
    exact balance

end Mutation

/-- Without the constraint it breaks, a mutation is accepted exactly when it isolates it. -/
theorem accepted_without_constraint_iff (m : Mutation) (hits : m.Hits w pi) :
    checkWithout m.constraint (m.apply w pi).1 (m.apply w pi).2 = .ok () ↔ m.Isolating w := by
  rw [checkWithout_eq_ok_iff]
  have masked {w : SpendWitness} {pi : SpendPublicInputs} (name : String)
      (other : name ≠ "C7: value imbalance") (broken : "C7: value imbalance" ∈ violations w pi) :
      (∀ other ∈ violations w pi, other = name) ↔ False :=
    iff_false_intro fun only => other (only _ broken).symm
  cases m with
  | pathSiblings i siblings => exact iff_true_intro fun _ => Mutation.isolated_pathSiblings sat
  | anchorRoot root => exact iff_true_intro fun _ => Mutation.isolated_anchorRoot sat
  | spenderTag tag => exact iff_true_intro fun _ => Mutation.isolated_spenderTag sat
  | commitment j cm => exact iff_true_intro fun _ => Mutation.isolated_commitment sat
  | outputRho j rho => exact iff_true_intro fun _ => Mutation.isolated_outputRho sat
  | balance j value => exact iff_true_intro fun _ => Mutation.isolated_balance sat hits.1
  | bindingDigest digest => exact iff_true_intro fun _ => Mutation.isolated_bindingDigest sat
  | dummyValue i value =>
      obtain ⟨nonzero, input, found, dummy⟩ := hits
      have zero := (sat.input i input found).dummy_value dummy
      exact masked _ (by simp [Mutation.constraint]) (mem_violations_of_imbalance
        (sat.imbalance_of_input found (zero ▸ nonzero)))
  | inputValue i value =>
      obtain ⟨large, input, found, -⟩ := hits
      have small := (sat.input i input found).value_lt
      exact masked _ (by simp [Mutation.constraint]) (mem_violations_of_imbalance
        (sat.imbalance_of_input found fun same => UInt64.not_le.mpr (same ▸ small) large))
  | outputValue j value =>
      obtain ⟨inside, large⟩ := hits
      obtain ⟨out, found⟩ := sat.exists_output inside
      have small := (sat.output j out found).value_lt
      exact masked _ (by simp [Mutation.constraint]) (mem_violations_of_imbalance
        (sat.imbalance_of_output found fun same => UInt64.not_le.mpr (same ▸ small) large))
  | nullifier i nf =>
      refine ⟨fun only first transfer j out found => ?_,
        fun isolating _ => Mutation.isolated_nullifier sat isolating hits⟩
      by_contra other
      subst first
      refine absurd (only "C5: output rho derivation invalid" (mem_violations.mpr
        (.inr (.inr (.inl ⟨j, out, found, ?_⟩))))) (by simp [Mutation.constraint])
      have derived : ¬out.rho = rhoTransfer
          (((Mutation.nullifier 0 nf).apply w pi).2.nullifiers.headD
          ⟨Bytes.filled 32 0⟩) (UInt8.ofNat j) := by
        rwa [Mutation.headD_nullifier_zero sat]
      simpa [outputChecks, Mutation.apply, transfer] using derived
  | inputCount count =>
      refine ⟨fun only => ?_, fun isolating _ => Mutation.isolated_inputCount sat isolating⟩
      by_contra carried
      refine absurd (only _ (mem_violations_of_imbalance ?_)) (by simp [Mutation.constraint])
      have whole := valueSum_take_add_drop w.inputs count
      have balance := sat.balance
      have dropped : valueSum ((w.inputs.drop count).map InputWitness.note) ≠ 0 := carried
      simp only [Mutation.apply]
      omega

namespace Mutation

/-- A check that lacks one constraint accepts a broken statement exactly when that is the
constraint broken and the mutation isolates it. -/
theorem accepted_iff (m : Mutation) (hits : m.Hits w pi) (removed : String) :
    checkWithout removed (m.apply w pi).1 (m.apply w pi).2 = .ok () ↔
      removed = m.constraint ∧ m.Isolating w := by
  rw [← accepted_without_constraint_iff sat m hits]
  constructor
  · intro accepted
    have reported := caught sat m hits
    rw [checkSpendStatement_eq, verdictOf_eq_error_iff] at reported
    have broken : m.constraint ∈ violations (m.apply w pi).1 (m.apply w pi).2 :=
      Scan.mem_of_report reported
    obtain rfl : m.constraint = removed := checkWithout_eq_ok_iff.mp accepted _ broken
    exact ⟨rfl, accepted⟩
  · rintro ⟨rfl, accepted⟩
    exact accepted

end Mutation

end Removed

section Samples

open Reference

/-- One unit more in the first output of the honest spend. -/
def inflated : Mutation := .balance 0 71

theorem inflated_hits :
    inflated.Hits (sampleSpend sampleKey.nk 0) (transferInputs (sampleSpend sampleKey.nk 0)) := by
  exact ⟨by decide, _, rfl, by decide⟩

theorem satisfied_sampleSpend :
    Satisfied (sampleSpend sampleKey.nk 0) (transferInputs (sampleSpend sampleKey.nk 0)) :=
  (checkSpendStatement_ok_iff _ _).mp sampleSpend_ok

end Samples

end ShieldedLedger
