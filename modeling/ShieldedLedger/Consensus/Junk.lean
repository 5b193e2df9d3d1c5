import ShieldedLedger.Consensus.Submission

/-!
# Inserting invalid transactions

The linearisation deduplicates before anything is validated, so an invalid
transaction takes the place of every later one with its digest.  An insertion is
invisible exactly when it displaces nothing that it does not stand for.
-/

namespace ShieldedLedger

section Rounds

variable [Blake3]

/-- The accepted transactions and the root of a round. -/
def Cluster.acceptedAndRoot (self : Cluster) (verifier : SpendVerifier) (submitted : List TxV1) :
    Option (List TxV1 × Bytes32) :=
  (self.commitRound verifier submitted).map fun round =>
    (acceptedTxs (commitOrder submitted) round.2.rejected, round.2.root)

theorem Cluster.acceptedAndRoot_eq (self : Cluster) (verifier : SpendVerifier)
    (submitted : List TxV1) :
    self.acceptedAndRoot verifier submitted = self.replicas.head?.map fun replica =>
      (acceptedOf (replica.verdicts verifier (commitOrder submitted)),
        (replica.applyCheckpoint verifier (commitOrder submitted)).2.anchor.root) := by
  have accepted (replica : Ledger) : acceptedTxs (commitOrder submitted)
      (replica.applyCheckpoint verifier (commitOrder submitted)).2.rejected =
        acceptedOf (replica.verdicts verifier (commitOrder submitted)) := by
    have listed := acceptedTxs_rejectedOf (replica.verdicts verifier (commitOrder submitted))
    rwa [Ledger.map_fst_verdicts, ← (replica.tracks_stageAll verifier _).rejected] at listed
  simp only [← accepted]
  obtain ⟨replicas, supply⟩ := self
  cases replicas with
  | nil => rfl
  | cons first rest => rfl

section Insertion

variable (earlier later : List TxV1) (junk : TxV1)

/-- Cutting an order with one more transaction at its digest. -/
theorem commitOrder_insert_cut :
    ∃ below above, (∀ tx ∈ below ++ above, tx.bindingDigest ≠ junk.bindingDigest) ∧
      ∀ others, (others = earlier ++ junk :: later ∨ others = earlier ++ later) →
        commitOrder others = below ++
          ((FirstWins.first TxV1.bindingDigest junk.bindingDigest others).toList ++ above) := by
  have below (tx : TxV1) (member : tx ∈ FirstWins.order TxV1.bindingDigest
      ((earlier ++ later).filter fun tx => decide (tx.bindingDigest < junk.bindingDigest))) :
      tx.bindingDigest ≠ junk.bindingDigest :=
    ne_of_lt (of_decide_eq_true ((FirstWins.mem_order_filter
      (fun digest => decide (digest < junk.bindingDigest))).mp member).1)
  have above (tx : TxV1) (member : tx ∈ FirstWins.order TxV1.bindingDigest
      ((earlier ++ later).filter fun tx => decide (junk.bindingDigest < tx.bindingDigest))) :
      tx.bindingDigest ≠ junk.bindingDigest :=
    ne_of_gt (of_decide_eq_true ((FirstWins.mem_order_filter
      (fun digest => decide (junk.bindingDigest < digest))).mp member).1)
  refine ⟨_, _, fun tx member => (List.mem_append.mp member).elim (below tx) (above tx), ?_⟩
  intro others either
  have parts (keep : TxV1 → Bool) (drop : keep junk = false) :
      others.filter keep = (earlier ++ later).filter keep := by
    rcases either with rfl | rfl
    · simp [drop]
    · rfl
  rw [← parts _ (by simp), ← parts _ (by simp)]
  exact FirstWins.order_cut junk.bindingDigest

variable {earlier junk}

/-- An insertion after a transaction of the same digest changes no order. -/
theorem commitOrder_insert_of_present
    (present : ∃ tx ∈ earlier, tx.bindingDigest = junk.bindingDigest) :
    commitOrder (earlier ++ junk :: later) = commitOrder (earlier ++ later) := by
  obtain ⟨below, above, -, cut⟩ := commitOrder_insert_cut earlier later junk
  obtain ⟨twin, found⟩ : ∃ twin,
      FirstWins.first TxV1.bindingDigest junk.bindingDigest earlier = some twin := by
    rw [← Option.isSome_iff_exists, FirstWins.first_isSome_iff, List.mem_map]
    exact present
  rw [cut _ (.inl rfl), cut _ (.inr rfl), FirstWins.first_append, FirstWins.first_append,
    found]
  rfl

/-- Any other insertion takes the place of the first later transaction of its digest. -/
theorem commitOrder_insert_of_absent
    (absent : ∀ tx ∈ earlier, tx.bindingDigest ≠ junk.bindingDigest) :
    ∃ below above, (∀ tx ∈ below ++ above, tx.bindingDigest ≠ junk.bindingDigest) ∧
      commitOrder (earlier ++ junk :: later) = below ++ ([junk] ++ above) ∧
      commitOrder (earlier ++ later) = below ++
        ((FirstWins.first TxV1.bindingDigest junk.bindingDigest later).toList ++ above) := by
  obtain ⟨below, above, others, cut⟩ := commitOrder_insert_cut earlier later junk
  have missing : FirstWins.first TxV1.bindingDigest junk.bindingDigest earlier = none := by
    simpa [FirstWins.first] using absent
  have front : FirstWins.first TxV1.bindingDigest junk.bindingDigest (junk :: later) =
      some junk := by
    simp [FirstWins.first]
  refine ⟨below, above, others, ?_, ?_⟩
  · rw [cut _ (.inl rfl), FirstWins.first_append, missing, front]
    rfl
  · rw [cut _ (.inr rfl), FirstWins.first_append, missing]
    rfl

end Insertion

/-- Whatever passes stateless validation with one offer does with the other. -/
def Offer.Serves (other offer : Offer) : Prop :=
  other.publicInputs = offer.publicInputs ∧ other.proof = offer.proof ∧
    ∀ difficultyBits, offer.lane.Meets difficultyBits → other.lane.Meets difficultyBits

/-- A transaction without a serving offer is invalid where the offer passes, for some
difficulty. -/
theorem exists_invalid_of_not_serves {junk : TxV1} {offer : Offer}
    (unserved : ¬∃ other, junk.offer = some other ∧ other.Serves offer) :
    ∃ difficultyBits, offer.lane.Meets difficultyBits ∧
      validateStateless junk offer.verifier difficultyBits ≠ .ok () := by
  by_contra passing
  push Not at passing
  have served (difficultyBits : ℕ) (meets : offer.lane.Meets difficultyBits) :
      ∃ other, junk.offer = some other ∧ other.lane.Meets difficultyBits ∧
        other.publicInputs = offer.publicInputs ∧ other.proof = offer.proof := by
    obtain ⟨other, offered, passes⟩ :=
      (validateStateless_ok_iff_offer ..).mp (passing difficultyBits meets)
    exact ⟨other, offered, Offer.passes_verifier_iff.mp passes⟩
  obtain ⟨difficultyBits, meets⟩ := offer.lane.exists_meets
  obtain ⟨other, offered, -, inputs, proof⟩ := served difficultyBits meets
  refine unserved ⟨other, offered, inputs, proof, fun difficultyBits meets => ?_⟩
  obtain ⟨other', offered', meets', -⟩ := served difficultyBits meets
  obtain rfl := Option.some.inj (offered.symm.trans offered')
  exact meets'

/-- An invalid transaction that displaces only what it serves leaves the accepted
transactions as they were. -/
theorem acceptedOf_insert {ledger : Ledger} {verifier : SpendVerifier} {earlier later : List TxV1}
    {junk : TxV1} (invalid : validateStateless junk verifier ledger.difficultyBits ≠ .ok ())
    (serves : (∀ tx ∈ earlier, tx.bindingDigest ≠ junk.bindingDigest) →
      ∀ twin, FirstWins.first TxV1.bindingDigest junk.bindingDigest later = some twin →
        ∀ offer, twin.offer = some offer → ∃ other, junk.offer = some other ∧ other.Serves offer) :
    acceptedOf (ledger.verdicts verifier (commitOrder (earlier ++ junk :: later))) =
      acceptedOf (ledger.verdicts verifier (commitOrder (earlier ++ later))) := by
  by_cases absent : ∀ tx ∈ earlier, tx.bindingDigest ≠ junk.bindingDigest
  · obtain ⟨below, above, -, withJunk, without⟩ :=
      commitOrder_insert_of_absent later absent
    have dropped : [junk].filter (ledger.valid verifier) = [] := by
      simpa [Ledger.valid] using invalid
    have droppedTwin : (FirstWins.first TxV1.bindingDigest junk.bindingDigest later).toList.filter
        (ledger.valid verifier) = [] := by
      cases found : FirstWins.first TxV1.bindingDigest junk.bindingDigest later with
      | none => rfl
      | some twin =>
          have twinInvalid : validateStateless twin verifier ledger.difficultyBits ≠ .ok () := by
            intro valid
            obtain ⟨offer, offered, passes⟩ := (validateStateless_ok_iff_offer ..).mp valid
            obtain ⟨other, offered', inputs, proof, meets⟩ := serves absent twin found offer offered
            refine invalid ((validateStateless_ok_iff_offer ..).mpr
              ⟨other, offered', meets _ passes.lane, ?_⟩)
            rw [inputs, proof]
            exact passes.proof
          simpa [Ledger.valid] using twinInvalid
    rw [ledger.acceptedOf_verdicts_filter,
      ledger.acceptedOf_verdicts_filter verifier (commitOrder _),
      withJunk, without]
    simp only [List.filter_append, dropped, droppedTwin]
  · push Not at absent
    rw [commitOrder_insert_of_present later absent]

/-- Inserting a transaction that every replica finds invalid is invisible, for every
verifier and cluster, exactly when an earlier transaction has its digest, or no
later one has, or the first such later one offers nothing or only what the
inserted one serves. -/
theorem insertion_invisible_iff (earlier later : List TxV1) (junk : TxV1) :
    (∀ (verifier : SpendVerifier) (cluster : Cluster),
      (∀ replica ∈ cluster.replicas,
        validateStateless junk verifier replica.difficultyBits ≠ .ok ()) →
      cluster.acceptedAndRoot verifier (earlier ++ junk :: later) =
        cluster.acceptedAndRoot verifier (earlier ++ later)) ↔
    ((∀ tx ∈ earlier, tx.bindingDigest ≠ junk.bindingDigest) →
      ∀ twin, FirstWins.first TxV1.bindingDigest junk.bindingDigest later = some twin →
        ∀ offer, twin.offer = some offer →
          ∃ other, junk.offer = some other ∧ other.Serves offer) := by
  constructor
  · intro invisible absent twin found offer offered
    by_contra unserved
    obtain ⟨difficultyBits, meets, invalid⟩ := exists_invalid_of_not_serves unserved
    let ledger := Ledger.probe sampleEmission twin.anchor offer.lane difficultyBits
    have same := invisible offer.verifier ⟨[ledger], 0⟩ fun replica member => by
      rwa [List.mem_singleton.mp member]
    simp only [Cluster.acceptedAndRoot_eq, List.head?_cons, Option.map_some, Option.some.injEq,
      Prod.mk.injEq] at same
    obtain ⟨below, above, others, withJunk, without⟩ :=
      commitOrder_insert_of_absent later absent
    rw [found] at without
    have invalidOthers (tx : TxV1) (member : tx ∈ below ++ above) :
        validateStateless tx offer.verifier ledger.difficultyBits ≠ .ok () := by
      refine Offer.validateStateless_verifier_ne_ok ?_ _
      rw [digest_of_offer offered, (FirstWins.first_some found).2]
      exact others tx member
    have accepted : twin ∈ acceptedOf (ledger.verdicts offer.verifier
        (commitOrder (earlier ++ later))) := by
      have judged := ledger.getElem?_verdicts_of_invalid offer.verifier above twin
        fun tx member => invalidOthers tx (List.mem_append_left _ member)
      rw [Ledger.verdict_probe sampleEmission offered meets] at judged
      rw [mem_acceptedOf, without]
      exact List.mem_of_getElem? judged
    have nothing : (commitOrder (earlier ++ junk :: later)).filter
        (ledger.valid offer.verifier) = [] := by
      rw [List.filter_eq_nil_iff, withJunk]
      intro tx member
      have invalidTx : validateStateless tx offer.verifier ledger.difficultyBits ≠ .ok () := by
        rcases List.mem_append.mp member with low | high
        · exact invalidOthers tx (List.mem_append_left _ low)
        · rcases List.mem_cons.mp high with rfl | high
          · exact invalid
          · exact invalidOthers tx (List.mem_append_right _ high)
      simpa [Ledger.valid] using invalidTx
    rw [← same.1, Ledger.acceptedOf_verdicts_filter, nothing] at accepted
    cases accepted
  · intro serves verifier cluster invalid
    rw [Cluster.acceptedAndRoot_eq, Cluster.acceptedAndRoot_eq]
    obtain ⟨replicas, supply⟩ := cluster
    cases replicas with
    | nil => rfl
    | cons replica rest =>
        have accepted := acceptedOf_insert (invalid replica (List.mem_cons_self ..)) serves
        simp only [List.head?_cons, Option.map_some, accepted, Ledger.summary_eq,
          Ledger.currentAnchor, Ledger.applyCheckpoint_height, CommitmentTree.root_eq_leavesRoot,
          replica.applyCheckpoint_leaves_of_accepted verifier accepted]

end Rounds

section Samples

open Reference

/-- The twin of the honest spend with an empty proof, submitted before it, takes its
place. -/
theorem twin_displaces_spend :
    ¬∀ (_ : Blake3) (verifier : SpendVerifier) (cluster : Cluster) (earlier later : List TxV1)
      (junk : TxV1), (∀ replica ∈ cluster.replicas,
        validateStateless junk verifier replica.difficultyBits ≠ .ok ()) →
      cluster.acceptedAndRoot verifier (earlier ++ junk :: later) =
        cluster.acceptedAndRoot verifier (earlier ++ later) := by
  intro claim
  have same := claim Reference.blake3 devVerifier sampleCluster [] [provenTx] sampleTx (by
    decide +kernel)
  have counts := congrArg (Option.map fun outcome => outcome.1.length) same
  exact absurd counts (by decide +kernel)

end Samples

end ShieldedLedger
