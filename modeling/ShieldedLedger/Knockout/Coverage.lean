import ShieldedLedger.Knockout
import ShieldedLedger.Reference
import ShieldedLedger.Tree.Growth
import Mathlib.Data.List.Permutation

/-!
# What the battery tells

The canonical spend satisfies the statement whatever the hash is.  The battery passes
exactly when four of the broken statements are not valid by coincidence.  Run against a
check that lacks a constraint it fails for six of the constraints; that an amount out of
place is no longer rejected for its range goes unnoticed, since the balance rejects it.
-/

namespace ShieldedLedger

namespace Knockout

section Baseline

variable [Blake3]

/-- What both inputs of the canonical spend have, sorted or not. -/
structure Spendable (root : Bytes32) (input : InputWitness) : Prop where
  dummy_value : input.isDummy = true → input.note.value = 0
  value_lt : input.note.value < maxMoney
  member : input.isDummy = false → verifyPath input.note.commitment input.path root = true
  owned : input.isDummy = false → input.note.addrTag = spender.addrTag

theorem spendable_spendInputs {path : MerklePath} {root : Bytes32}
    (verified : verifyPath spentNote.commitment path root = true) :
    ∀ input ∈ spendInputs path, Spendable root input := by
  intro input member
  rcases List.mem_pair.mp member with rfl | rfl
  · exact ⟨nofun, by simp only [spentNote]; decide, fun _ => verified, fun _ => rfl⟩
  · exact ⟨fun _ => rfl, by simp only [Note.dummy]; decide, nofun, nofun⟩

theorem exists_witness_noteTree : ∃ path, noteTree.witness 0 = some path ∧
    verifyPath spentNote.commitment path noteTree.root = true :=
  (noteTree.witness_verifies_iff rfl noteTree.root).mpr noteTree.blockRoot_zero

omit [Blake3] in
theorem nullifiers_sorted [Blake3] (nk : Bytes32) (inputs : List InputWitness) :
    ((inputs.map fun input => input.note.nullifier nk).insertionSort
        fun left right => left.bytes ≤ right.bytes) =
      (inputs.insertionSort fun left right =>
        (left.note.nullifier nk).bytes ≤ (right.note.nullifier nk).bytes).map
          fun input => input.note.nullifier nk :=
  (List.map_insertionSort (fun left right : InputWitness =>
      (left.note.nullifier nk).bytes ≤ (right.note.nullifier nk).bytes)
    (fun left right : Nullifier => left.bytes ≤ right.bytes)
    (fun input => input.note.nullifier nk) inputs fun _ _ _ _ => Iff.rfl).symm

/-- The canonical spend with its inputs in a given order. -/
def spendOf (first second : InputWitness) : SpendWitness where
  spenderNk := spender.nk
  spenderAddrTag := spender.addrTag
  inputs := [first, second]
  outputs := [⟨70, recipient.addrTag, rhoTransfer (first.note.nullifier spender.nk) 0,
      Bytes.filled 32 1⟩,
    ⟨30, spender.addrTag, rhoTransfer (first.note.nullifier spender.nk) 1, Bytes.filled 32 2⟩]
  mintValue := 0
  bindingDigest := Bytes.filled 32 3

theorem satisfied_spendOf {path : MerklePath} {first second : InputWitness} {root : Bytes32}
    (perm : [first, second].Perm (spendInputs path))
    (verified : verifyPath spentNote.commitment path root = true) :
    Satisfied (spendOf first second) (publicInputs (spendOf first second) ⟨0, root⟩) := by
  have spendable := spendable_spendInputs verified
  have positive : (0 : UInt64) < maxMoney := by decide
  refine ⟨rfl, rfl, rfl, rfl, rfl, ?_, ?_, positive, ?_⟩
  · intro i input found
    have holds := spendable input (perm.subset (List.mem_of_getElem? found))
    exact ⟨holds.dummy_value, holds.value_lt, holds.member, holds.owned,
      nullifier_published _ found⟩
  · intro i out found
    refine ⟨?_, commitment_published _ found, fun _ => ?_⟩
    · rcases List.mem_pair.mp (List.mem_of_getElem? found) with rfl | rfl <;> simp only <;> decide
    · match i, found with
      | 0, found => exact (Option.some.inj found) ▸ rfl
      | 1, found => exact (Option.some.inj found) ▸ rfl
  · have total := ((perm.map InputWitness.note).map fun note => note.value.toNat).sum_eq
    rw [valueSum, show (spendOf first second).inputs = [first, second] from rfl, total]
    rfl

/-- The canonical spend, with its inputs sorted by their nullifiers. -/
theorem baseline_eq : ∃ path first second,
    baseline = some (spendOf first second,
      publicInputs (spendOf first second) ⟨0, noteTree.root⟩, ⟨0, noteTree.root⟩) ∧
    [first, second].Perm (spendInputs path) ∧
    verifyPath spentNote.commitment path noteTree.root = true := by
  obtain ⟨path, given, verified⟩ := exists_witness_noteTree
  have perm : ((spendInputs path).insertionSort fun left right =>
      (left.note.nullifier spender.nk).bytes ≤ (right.note.nullifier spender.nk).bytes).Perm
        (spendInputs path) := List.perm_insertionSort _ _
  obtain ⟨first, second, sorted⟩ := List.length_eq_two.mp (perm.length_eq.trans rfl)
  rw [sorted] at perm
  refine ⟨path, first, second, ?_, perm, verified⟩
  have witnessed : (noteTree.seal 0).1.witness
      (CommitmentTree.new.append spentNote.commitment).2 = some path := given
  simp only [baseline, witnessed, Option.bind_eq_bind, Option.bind_some, nullifiers_sorted, sorted,
    canonicalize]
  rfl

end Baseline

section Battery

variable [Blake3]

omit [Blake3] in
theorem flipFirst_ne (bytes : Bytes32) : flipFirst bytes ≠ bytes := by
  intro same
  have flipped : (flipFirst bytes).get 0 = bytes.get 0 ^^^ 0xFF := List.Vector.get_set_same _ _ _
  rw [same] at flipped
  have cleared := congrArg (bytes.get 0 ^^^ ·) flipped
  rw [← UInt8.xor_assoc, UInt8.xor_self, UInt8.zero_xor] at cleared
  cases cleared

/-- The broken statements that could be valid by coincidence are not: the path with a
flipped byte, and three values that the hash has to differ from. -/
structure Discriminates (w : SpendWitness) (pi : SpendPublicInputs) : Prop where
  path : ∀ input ∈ w.inputs, input.isDummy = false →
    verifyPath input.note.commitment { input.path with
      siblings := input.path.siblings.set leafLevel
        (flipFirst (input.path.siblings.get leafLevel)) } pi.anchor.root = false
  root : Bytes.filled 32 0xAB ≠ pi.anchor.root
  tag : (SpendingKey.fromSeed (Bytes.filled 32 99)).addrTag ≠ w.spenderAddrTag
  rho : ∀ out, w.outputs[0]? = some out → Bytes.filled 32 0x42 ≠ out.rho

omit [Blake3] in
theorem expectReject_passed_iff {check : SpendCheck} {mutation expected : String}
    {w : SpendWitness} {pi : SpendPublicInputs} :
    (expectReject check mutation expected w pi).passed = true ↔ check w pi ≠ .ok () := by
  rw [expectReject]
  cases check w pi with
  | error error => simp
  | ok _ => simp

variable {w : SpendWitness} {pi : SpendPublicInputs} {anchor : Anchor}
  {attempts : List (String × String × Mutation)}

theorem runAgainst_eq (made : baseline = some (w, pi, anchor))
    (armed : battery w pi = some attempts) (check : SpendCheck) :
    runAgainst check = some (expectAccept check w pi :: attempts.map fun entry =>
      expectReject check entry.1 entry.2.1 (entry.2.2.apply w pi).1 (entry.2.2.apply w pi).2) := by
  simp only [runAgainst, made, Option.bind_eq_bind, Option.bind_some, armed]
  rfl

/-- The battery passes against a check that accepts the baseline and rejects each entry. -/
theorem allCaughtBy_iff (made : baseline = some (w, pi, anchor))
    (armed : battery w pi = some attempts) (check : SpendCheck) :
    allCaughtBy check = some true ↔ check w pi = .ok () ∧
      ∀ entry ∈ attempts, check (entry.2.2.apply w pi).1 (entry.2.2.apply w pi).2 ≠ .ok () := by
  have accepted : (expectAccept check w pi).passed = true ↔ check w pi = .ok () := by
    rw [expectAccept]
    cases check w pi <;> simp [Except.isOk, Except.toBool]
  rw [allCaughtBy, runAgainst_eq made armed, Option.map_some, Option.some.injEq, List.all_cons,
    Bool.and_eq_true, accepted, List.all_map, List.all_eq_true]
  simp only [Function.comp_apply, expectReject_passed_iff]

/-- What the battery of a spend is made from. -/
structure Aimed (w : SpendWitness) (pi : SpendPublicInputs) (real dummy : ℕ) (input : InputWitness)
    (out : Note) (nf : Nullifier) (cm : Commitment) : Prop where
  input_at : w.inputs[real]? = some input
  input_real : input.isDummy = false
  only : ∀ other ∈ w.inputs, other.isDummy = false → other = input
  dummy_at : ∃ other, w.inputs[dummy]? = some other ∧ other.isDummy = true
  out_at : w.outputs[0]? = some out
  out_small : out.value = 70
  nf_at : pi.nullifiers[0]? = some nf
  cm_at : pi.commitments[0]? = some cm
  unminted : w.mintValue = 0

variable {real dummy : ℕ} {input : InputWitness} {out : Note} {nf : Nullifier} {cm : Commitment}

theorem Aimed.hits (aimed : Aimed w pi real dummy input out nf cm)
    (discriminates : Discriminates w pi) :
    ∀ entry ∈ entries real dummy input out nf cm pi.bindingDigest, entry.2.2.Hits w pi := by
  have member : input ∈ w.inputs := List.mem_of_getElem? aimed.input_at
  have exists_real : ∃ input ∈ w.inputs, input.isDummy = false := ⟨input, member, aimed.input_real⟩
  have inside : 0 < txOutputs := by decide
  simp only [entries, List.forall_mem_cons, List.not_mem_nil, false_implies, implies_true, and_true]
  refine ⟨?_, ?_, ?_, ?_, ?_, ?_, ?_, ?_, ?_, ?_, ?_, ?_⟩
  · exact ⟨input, aimed.input_at, aimed.input_real,
      discriminates.path input member aimed.input_real⟩
  · exact ⟨exists_real, discriminates.root⟩
  · refine ⟨by decide, fun same => flipFirst_ne nf.bytes ?_⟩
    exact (congrArg Nullifier.bytes (Option.some.inj (aimed.nf_at.symm.trans same))).symm
  · exact ⟨exists_real, discriminates.tag⟩
  · exact ⟨by decide, aimed.dummy_at⟩
  · exact ⟨UInt64.le_refl _, input, aimed.input_at, aimed.input_real⟩
  · exact ⟨inside, UInt64.le_refl _⟩
  · refine ⟨inside, fun same => flipFirst_ne cm.bytes ?_⟩
    exact (congrArg Commitment.bytes (Option.some.inj (aimed.cm_at.symm.trans same))).symm
  · exact ⟨aimed.unminted, out, aimed.out_at, discriminates.rho out aimed.out_at⟩
  · rw [aimed.out_small]
    exact ⟨by decide, out, aimed.out_at, by rw [aimed.out_small]; decide⟩
  · exact flipFirst_ne pi.bindingDigest
  · exact show 1 < txInputs by decide

/-- Another path that verifies keeps the statement valid. -/
theorem satisfied_pathSiblings (sat : Satisfied w pi)
    {siblings : List.Vector Bytes32 treeDepth} (found : w.inputs[real]? = some input)
    (verified : verifyPath input.note.commitment { input.path with siblings := siblings }
      pi.anchor.root = true) :
    Satisfied ((Mutation.pathSiblings real siblings).apply w pi).1
      ((Mutation.pathSiblings real siblings).apply w pi).2 := by
  have notes : (w.inputs.modify real fun input : InputWitness =>
      { input with path := { input.path with siblings := siblings } }).map InputWitness.note =
        w.inputs.map InputWitness.note := map_modify_eq _ _ fun _ => rfl
  refine ⟨?_, sat.outputs_length, sat.nullifiers_length, sat.commitments_length,
    sat.bindingDigest_eq, ?_, ?_, sat.mint_lt, ?_⟩
  · simpa [Mutation.apply] using sat.inputs_length
  · intro k other at_k
    obtain ⟨before, original, same | ⟨rfl, same⟩⟩ := exists_of_getElem?_modify at_k
    · have satisfied := sat.input k before original
      obtain rfl := same
      exact ⟨satisfied.dummy_value, satisfied.value_lt, satisfied.member, satisfied.owned,
        satisfied.nullifier⟩
    · obtain rfl : before = input := Option.some.inj (original.symm.trans found)
      have satisfied := sat.input real before original
      obtain rfl := same
      exact ⟨satisfied.dummy_value, satisfied.value_lt, fun _ => verified, satisfied.owned,
        satisfied.nullifier⟩
  · intro k other at_k
    have satisfied := sat.output k other at_k
    exact ⟨satisfied.value_lt, satisfied.commitment, satisfied.rho⟩
  · rw [Mutation.apply, notes]
    exact sat.balance

/-- If the battery passes, no broken statement was valid by coincidence. -/
theorem Aimed.discriminates (aimed : Aimed w pi real dummy input out nf cm) (sat : Satisfied w pi)
    (caught : ∀ entry ∈ entries real dummy input out nf cm pi.bindingDigest,
      checkSpendStatement (entry.2.2.apply w pi).1 (entry.2.2.apply w pi).2 ≠ .ok ()) :
    Discriminates w pi := by
  have accepted := (checkSpendStatement_ok_iff w pi).mpr sat
  simp only [entries, List.forall_mem_cons] at caught
  obtain ⟨corrupted, forged, -, wrong, -, -, -, -, bad, -⟩ := caught
  refine ⟨fun other member isReal => ?_, fun same => ?_, fun same => ?_, fun other found same => ?_⟩
  · obtain rfl := aimed.only other member isReal
    rw [← Bool.not_eq_true]
    intro verified
    exact corrupted ((checkSpendStatement_ok_iff _ _).mpr
      (satisfied_pathSiblings sat aimed.input_at verified))
  · refine forged ?_
    rw [Mutation.apply, same]
    exact accepted
  · refine wrong ?_
    rw [Mutation.apply, same]
    exact accepted
  · have unchanged : w.outputs.modify 0 (fun out => { out with rho := Bytes.filled 32 0x42 }) =
        w.outputs := by
      apply List.ext_getElem?
      intro k
      rw [List.getElem?_modify]
      split
      · rename_i first
        rw [← first, found, same]
        rfl
      · simp
    refine bad ?_
    rw [Mutation.apply, unchanged]
    exact (checkSpendStatement_ok_iff _ _).mpr sat.republished

/-- What the battery is made from exists for the canonical spend. -/
theorem exists_aimed {path : MerklePath} {first second : InputWitness} {root : Bytes32}
    (perm : [first, second].Perm (spendInputs path)) :
    ∃ real dummy input out nf cm,
      Aimed (spendOf first second) (publicInputs (spendOf first second) ⟨0, root⟩) real dummy input
        out nf cm ∧
      battery (spendOf first second) (publicInputs (spendOf first second) ⟨0, root⟩) =
        some (entries real dummy input out nf cm (Bytes.filled 32 3)) := by
  rcases List.perm_pair.mp perm with order | order
  · obtain ⟨rfl, rfl⟩ : first = _ ∧ second = _ := by simpa using order
    refine ⟨0, 1, _, _, _, _, ⟨rfl, rfl, ?_, ⟨_, rfl, rfl⟩, rfl, rfl, rfl, rfl, rfl⟩, rfl⟩
    intro other member isReal
    rcases List.mem_pair.mp member with rfl | rfl
    · rfl
    · cases isReal
  · obtain ⟨rfl, rfl⟩ : first = _ ∧ second = _ := by simpa using order
    refine ⟨1, 0, _, _, _, _, ⟨rfl, rfl, ?_, ⟨_, rfl, rfl⟩, rfl, rfl, rfl, rfl, rfl⟩, rfl⟩
    intro other member isReal
    rcases List.mem_pair.mp member with rfl | rfl
    · cases isReal
    · rfl

/-- The battery notices that a constraint is removed exactly when an entry isolates it. -/
theorem Aimed.noticed_iff (aimed : Aimed w pi real dummy input out nf cm) (sat : Satisfied w pi)
    (discriminates : Discriminates w pi) (made : baseline = some (w, pi, anchor))
    (armed : battery w pi = some (entries real dummy input out nf cm pi.bindingDigest))
    (removed : String) :
    allCaughtBy (checkWithout removed) = some false ↔
      ∃ entry ∈ entries real dummy input out nf cm pi.bindingDigest,
        removed = entry.2.2.constraint ∧ entry.2.2.Isolating w := by
  have baselineAccepted : checkWithout removed w pi = .ok () := by
    have none : violations w pi = [] := by
      rw [← verdictOf_eq_ok_iff, ← checkSpendStatement_eq, checkSpendStatement_ok_iff]
      exact sat
    rw [checkWithout_eq_ok_iff, none]
    exact nofun
  have failing : allCaughtBy (checkWithout removed) = some false ↔
      ¬allCaughtBy (checkWithout removed) = some true := by
    rw [allCaughtBy, runAgainst_eq made armed, Option.map_some, Option.some.injEq,
      Option.some.injEq, Bool.not_eq_true]
  rw [failing, allCaughtBy_iff made armed]
  push Not
  constructor
  · intro noticed
    obtain ⟨entry, member, accepted⟩ := noticed baselineAccepted
    exact ⟨entry, member,
      (Mutation.accepted_iff sat _ (aimed.hits discriminates entry member) removed).mp accepted⟩
  · rintro ⟨entry, member, isolated⟩ -
    exact ⟨entry, member,
      (Mutation.accepted_iff sat _ (aimed.hits discriminates entry member) removed).mpr isolated⟩

theorem exists_isolating_iff {digest : Bytes32} {removed : String} :
    (∃ entry ∈ entries real dummy input out nf cm digest,
      removed = entry.2.2.constraint ∧ entry.2.2.Isolating w) ↔
      removed ∈ ["C1: membership proof invalid", "C3: note not owned by spender",
        "C5: output commitment mismatch", "C5: output rho derivation invalid",
        "C7: value imbalance", "C8: binding digest mismatch"] ∨
      (removed = "C2: nullifier derivation mismatch" ∧
        (Mutation.nullifier 0 ⟨flipFirst nf.bytes⟩).Isolating w) ∨
      (removed = "C0: wrong input/output arity" ∧ (Mutation.inputCount 1).Isolating w) := by
  simp only [entries, List.mem_cons, List.not_mem_nil, or_false, exists_eq_or_imp,
    exists_eq_left, Mutation.constraint]
  simp only [Mutation.Isolating]
  tauto

/-- The constraint that an entry is aimed at is the one it breaks. -/
theorem constraint_of_mem {digest : Bytes32} :
    ∀ entry ∈ entries real dummy input out nf cm digest,
      ∃ detail, entry.2.2.constraint = entry.2.1 ++ ": " ++ detail := by
  simp only [entries, List.forall_mem_cons, List.not_mem_nil, false_implies, implies_true, and_true,
    Mutation.constraint]
  exact ⟨⟨"membership proof invalid", by simp⟩, ⟨"membership proof invalid", by simp⟩,
    ⟨"nullifier derivation mismatch", by simp⟩, ⟨"note not owned by spender", by simp⟩,
    ⟨"dummy note must have zero value", by simp⟩, ⟨"input value out of range", by simp⟩,
    ⟨"output value out of range", by simp⟩, ⟨"output commitment mismatch", by simp⟩,
    ⟨"output rho derivation invalid", by simp⟩, ⟨"value imbalance", by simp⟩,
    ⟨"binding digest mismatch", by simp⟩, ⟨"wrong input/output arity", by simp⟩⟩

/-- The canonical spend is valid, and the battery for it can be made. -/
theorem exists_armed : ∃ w pi, baseline = some (w, pi, pi.anchor) ∧ Satisfied w pi ∧
    ∃ real dummy input out nf cm, Aimed w pi real dummy input out nf cm ∧
      battery w pi = some (entries real dummy input out nf cm pi.bindingDigest) := by
  obtain ⟨path, first, second, made, perm, verified⟩ := baseline_eq
  obtain ⟨real, dummy, input, out, nf, cm, aimed, armed⟩ := exists_aimed perm
  exact ⟨_, _, made, satisfied_spendOf perm verified, real, dummy, input, out, nf, cm, aimed, armed⟩

/-- A battery that passes tells that no broken statement is valid by coincidence. -/
theorem discriminates_of_allCaught (made : baseline = some (w, pi, anchor))
    (passed : allCaught = some true) : Discriminates w pi := by
  obtain ⟨w', pi', made', sat, real, dummy, input, out, nf, cm, aimed, armed⟩ := exists_armed
  obtain ⟨rfl, rfl, rfl⟩ : w = w' ∧ pi = pi' ∧ anchor = pi'.anchor := by
    simpa using made.symm.trans made'
  exact aimed.discriminates sat ((allCaughtBy_iff made armed checkSpendStatement).mp passed).2

end Battery

section Coverage

variable [Blake3]

/-- The battery runs on a valid spend and passes exactly when none of four broken
statements is valid by coincidence.  Then the baseline is accepted and fires nothing, and
each of the twelve mutations fires the constraint it is aimed at. -/
theorem allCaught_iff : ∃ w pi, baseline = some (w, pi, pi.anchor) ∧ Satisfied w pi ∧
    (allCaught = some true ↔ Discriminates w pi) ∧
    (Discriminates w pi → ∃ results,
      runKnockouts = some (⟨"baseline (must be valid)", "none", true, none⟩ :: results) ∧
      results.map Knockout.expectedConstraint =
        ["C1", "C1", "C2", "C3", "C4", "C6", "C6", "C5", "C5", "C7", "C8", "C0"] ∧
      ∀ entry ∈ results, entry.passed = true ∧ ∃ detail,
        entry.fired = some ("witness does not satisfy the spend statement: " ++
          (entry.expectedConstraint ++ ": " ++ detail))) := by
  obtain ⟨w, pi, made, sat, real, dummy, input, out, nf, cm, aimed, armed⟩ := exists_armed
  have accepted := (checkSpendStatement_ok_iff w pi).mpr sat
  refine ⟨w, pi, made, sat, ⟨discriminates_of_allCaught made, ?_⟩, fun discriminates => ?_⟩
  · intro discriminates
    refine (allCaughtBy_iff made armed checkSpendStatement).mpr ⟨accepted, fun entry member => ?_⟩
    rw [Mutation.caught sat _ (aimed.hits discriminates entry member)]
    nofun
  · have valid : expectAccept checkSpendStatement w pi =
        ⟨"baseline (must be valid)", "none", true, none⟩ := by
      rw [expectAccept, accepted]
      rfl
    refine ⟨_, valid ▸ runAgainst_eq made armed checkSpendStatement, ?_, fun entry member => ?_⟩
    · rw [List.map_map]
      have aims (attempt : String × String × Mutation) :
          (Knockout.expectedConstraint ∘ fun entry : String × String × Mutation =>
            expectReject checkSpendStatement entry.1 entry.2.1 (entry.2.2.apply w pi).1
              (entry.2.2.apply w pi).2) attempt = attempt.2.1 := by
        rw [Function.comp_apply, expectReject]
        split <;> rfl
      rw [funext aims]
      rfl
    · obtain ⟨attempt, attempted, rfl⟩ := List.mem_map.mp member
      have caught := Mutation.caught sat _ (aimed.hits discriminates attempt attempted)
      obtain ⟨detail, named⟩ := constraint_of_mem attempt attempted
      rw [expectReject, caught]
      refine ⟨rfl, detail, ?_⟩
      rw [← named]
      rfl

/-- Unless a broken statement is valid by coincidence, the battery run against a check that
lacks one constraint fails for exactly these constraints: six of them always, the nullifier
derivation only if the outputs' nonces are also those of the tampered nullifier, and the arity
only if the input cut off was the dummy.  The range of an amount and the value of a dummy can
be removed without a failing entry. -/
theorem removal_noticed_iff : ∃ w pi, baseline = some (w, pi, pi.anchor) ∧ Satisfied w pi ∧
    (Discriminates w pi → ∀ removed, allCaughtBy (checkWithout removed) = some false ↔
      removed ∈ ["C1: membership proof invalid", "C3: note not owned by spender",
        "C5: output commitment mismatch", "C5: output rho derivation invalid",
        "C7: value imbalance", "C8: binding digest mismatch"] ∨
      (removed = "C2: nullifier derivation mismatch" ∧ ∃ nf, pi.nullifiers[0]? = some nf ∧
        ∀ j out, w.outputs[j]? = some out →
          out.rho = rhoTransfer ⟨flipFirst nf.bytes⟩ (UInt8.ofNat j)) ∨
      (removed = "C0: wrong input/output arity" ∧
        ∃ input, w.inputs[1]? = some input ∧ input.isDummy = true)) := by
  obtain ⟨path, first, second, made, perm, verified⟩ := baseline_eq
  have sat := satisfied_spendOf perm verified
  obtain ⟨real, dummy, input, out, nf, cm, aimed, armed⟩ := exists_aimed perm
  refine ⟨_, _, made, sat, fun discriminates removed => ?_⟩
  have tampered : (Mutation.nullifier 0 ⟨flipFirst nf.bytes⟩).Isolating (spendOf first second) ↔
      ∃ nf, (publicInputs (spendOf first second) ⟨0, noteTree.root⟩).nullifiers[0]? = some nf ∧
        ∀ j out, (spendOf first second).outputs[j]? = some out →
          out.rho = rhoTransfer ⟨flipFirst nf.bytes⟩ (UInt8.ofNat j) := by
    rw [aimed.nf_at]
    simp [Mutation.Isolating, aimed.unminted]
  have dropped : (Mutation.inputCount 1).Isolating (spendOf first second) ↔
      ∃ input, (spendOf first second).inputs[1]? = some input ∧ input.isDummy = true := by
    have last : second = ⟨spentNote, path, false⟩ ∨
        second = ⟨Note.dummy (Bytes.filled 32 5), emptyPath, true⟩ :=
      List.mem_pair.mp (perm.subset (by simp))
    rcases last with rfl | rfl <;>
      simp [Mutation.Isolating, spendOf, spentNote, Note.dummy, valueSum]
  rw [aimed.noticed_iff sat discriminates made armed, exists_isolating_iff, tampered, dropped]

end Coverage

section Samples

open Reference

/-- Under the reference hash no broken statement is valid by coincidence. -/
theorem reference_discriminates {w : SpendWitness} {pi : SpendPublicInputs} {anchor : Anchor}
    (made : baseline = some (w, pi, anchor)) : Discriminates w pi :=
  discriminates_of_allCaught made (by decide +kernel)

/-- Then all twelve mutations fire a constraint. -/
theorem runKnockouts_sample : ∃ results,
    runKnockouts = some (⟨"baseline (must be valid)", "none", true, none⟩ :: results) ∧
      results.length = 12 ∧ ∀ entry ∈ results, entry.fired ≠ none := by
  obtain ⟨w, pi, made, -, -, fires⟩ := allCaught_iff
  obtain ⟨results, ran, aims, fired⟩ := fires (reference_discriminates made)
  have size := congrArg List.length aims
  rw [List.length_map] at size
  refine ⟨results, ran, size, fun entry member => ?_⟩
  obtain ⟨-, detail, message⟩ := fired entry member
  rw [message]
  nofun

/-- A check without the balance fails it. -/
theorem balance_removal_noticed :
    allCaughtBy (checkWithout "C7: value imbalance") = some false := by
  obtain ⟨w, pi, made, -, noticed⟩ := removal_noticed_iff
  exact (noticed (reference_discriminates made) _).mpr (.inl (by simp))

/-- The value of a dummy is checked twice, by its own constraint and by the balance. -/
example : allCaughtBy (checkWithout "C4: dummy note must have zero value") = some true := by
  decide +kernel

end Samples

end Knockout

end ShieldedLedger
