import ShieldedLedger.General.CoinPool
import ShieldedLedger.ProverDev.Statement
import ShieldedLedger.State.History
import ShieldedLedger.Tree.Binding

/-!
# No invisible inflation

Every leaf of a run is the commitment of a note; the notes form a pool of coins
whose spent positions are those with a published nullifier.  Transfers keep the
unspent total, rewards add exactly what the supply gains, so nobody can hold
unspent notes worth more than the supply.
-/

namespace ShieldedLedger

section Audit

variable [Blake3]

/-- What the proof system behind a verifier guarantees: an accepted proof comes
from a satisfying witness of one spending key that mints the public amount. -/
structure KnowledgeExtractor (verifier : SpendVerifier) where
  witness : SpendPublicInputs → List UInt8 → SpendWitness
  key : SpendPublicInputs → List UInt8 → SpendingKey
  sound : ∀ pi proof, verifier.verify pi proof = .ok () →
    checkSpendStatement (witness pi proof) pi = .ok () ∧
    (witness pi proof).mintValue = pi.mintValue ∧
    (witness pi proof).spenderNk = (key pi proof).nk ∧
    (witness pi proof).spenderAddrTag = (key pi proof).addrTag

/-! ## Accounts -/

/-- The notes behind the leaves, and the pool of their values.  Every spent
position is owned by a key whose nullifier for it has been published. -/
structure Account (queries : Set Query) (leaves : List Bytes32) (published : Finset Nullifier)
    (total : ℕ) (notes : List Note) (pool : CoinPool) : Prop where
  values : pool.values = notes.map fun note => note.value.toNat
  opens : notes.map (fun note => note.commitment.bytes) = leaves
  queried : ∀ note ∈ notes, note.commitmentQuery ∈ queries
  spender : ∀ position ∈ pool.spent, ∃ (note : Note) (key : SpendingKey),
    notes[position]? = some note ∧
    (∀ query ∈ key.tagQueries, query ∈ queries) ∧ key.addrTag = note.addrTag ∧
    note.nullifier key.nk ∈ published
  unspent : pool.unspent = total

/-- The leaves open to notes whose unspent total is given. -/
def Balanced (queries : Set Query) (leaves : List Bytes32) (published : Finset Nullifier)
    (total : ℕ) : Prop :=
  ∃ notes pool, Account queries leaves published total notes pool

namespace Account

variable {queries : Set Query} {leaves : List Bytes32} {published : Finset Nullifier} {total : ℕ}
  {notes : List Note} {pool : CoinPool}

theorem publish (account : Account queries leaves published total notes pool)
    {more : Finset Nullifier} (subset : published ⊆ more) :
    Account queries leaves more total notes pool :=
  { account with
    spender := fun position spent => by
      obtain ⟨note, key, found, hashed, owned, member⟩ := account.spender position spent
      exact ⟨note, key, found, hashed, owned, subset member⟩ }

theorem length_values (account : Account queries leaves published total notes pool) :
    pool.values.length = notes.length := by
  rw [account.values, List.length_map]

theorem value_of_getElem? (account : Account queries leaves published total notes pool)
    {position : ℕ} {note : Note} (found : notes[position]? = some note) :
    pool.value position = note.value.toNat := by
  simp [CoinPool.value, account.values, List.getD_eq_getElem?_getD, found]

/-- A position whose nullifier is unpublished has not been spent. -/
theorem not_mem_spent (account : Account queries leaves published total notes pool)
    (free : CollisionFree queries) {position : ℕ} {note : Note} {key : SpendingKey}
    (found : notes[position]? = some note) (hashed : ∀ query ∈ key.tagQueries, query ∈ queries)
    (owned : key.addrTag = note.addrTag) (fresh : note.nullifier key.nk ∉ published) :
    position ∉ pool.spent := by
  intro spent
  obtain ⟨other, key', found', hashed', owned', member⟩ := account.spender position spent
  obtain rfl : note = other := by simpa [found] using found'
  obtain rfl : key = key' :=
    SpendingKey.eq_of_addrTag free hashed hashed' (owned.trans owned'.symm)
  exact fresh member

/-- Spending an owned note publishes its nullifier and removes its value. -/
theorem spend (account : Account queries leaves published total notes pool)
    (free : CollisionFree queries) {position : ℕ} {note : Note} {key : SpendingKey}
    (found : notes[position]? = some note) (hashed : ∀ query ∈ key.tagQueries, query ∈ queries)
    (owned : key.addrTag = note.addrTag) (fresh : note.nullifier key.nk ∉ published) :
    ∃ rest, rest + note.value.toNat = total ∧
      Balanced queries leaves (insert (note.nullifier key.nk) published) rest := by
  have inRange : position < pool.values.length := by
    rw [account.length_values]
    exact (List.getElem?_eq_some_iff.mp found).1
  have unspent := account.not_mem_spent free found hashed owned fresh
  have removed := pool.unspent_spend inRange unspent
  rw [account.value_of_getElem? found, account.unspent] at removed
  refine ⟨_, removed, notes, pool.spend position inRange, ?_⟩
  exact {
    values := account.values
    opens := account.opens
    queried := account.queried
    spender := by
      intro other member
      rcases Finset.mem_insert.mp member with rfl | earlier
      · exact ⟨note, key, found, hashed, owned, Finset.mem_insert_self _ _⟩
      · obtain ⟨note', key', found', hashed', owned', published'⟩ := account.spender other earlier
        exact ⟨note', key', found', hashed', owned', Finset.mem_insert_of_mem published'⟩
    unspent := rfl }

/-- A queried note whose commitment is a leaf is the note behind that leaf. -/
theorem getElem?_of_leaf (account : Account queries leaves published total notes pool)
    (free : CollisionFree queries) {position : ℕ} {note : Note}
    (queried : note.commitmentQuery ∈ queries)
    (leaf : leaves[position]? = some note.commitment.bytes) : notes[position]? = some note := by
  rw [← account.opens, List.getElem?_map, Option.map_eq_some_iff] at leaf
  obtain ⟨other, found, bytesEq⟩ := leaf
  have commitmentEq : other.commitment = note.commitment := by
    cases left : other.commitment
    cases right : note.commitment
    rw [left, right] at bytesEq
    exact congrArg Commitment.mk bytesEq
  have otherQueried := account.queried other (List.mem_of_getElem? found)
  rw [found, Note.eq_of_commitment free otherQueried queried commitmentEq]

/-- Committing fresh notes adds their values. -/
theorem commit (account : Account queries leaves published total notes pool) (fresh : List Note)
    (queried : ∀ note ∈ fresh, note.commitmentQuery ∈ queries) :
    Balanced queries (leaves ++ fresh.map fun note => note.commitment.bytes) published
      (total + valueSum fresh) := by
  refine ⟨notes ++ fresh, pool.create (fresh.map fun note => note.value.toNat), ?_⟩
  exact {
    values := by simp [CoinPool.create, account.values]
    opens := by simp [account.opens]
    queried := by
      intro note member
      rcases List.mem_append.mp member with earlier | added
      · exact account.queried note earlier
      · exact queried note added
    spender := by
      intro position spent
      obtain ⟨note, key, found, rest⟩ := account.spender position spent
      exact ⟨note, key, by
        rw [List.getElem?_append_left (List.getElem?_eq_some_iff.mp found).1, found], rest⟩
    unspent := by rw [CoinPool.unspent_create, account.unspent, valueSum] }

end Account

/-! ## Transfers -/

/-- Queries made to check one input; the path of a dummy is not followed. -/
def InputWitness.queries (input : InputWitness) : List Query :=
  if input.isDummy then []
  else input.note.commitmentQuery :: pathQueries input.note.commitment input.path

/-- Queries made to check a spend of a key. -/
def spendQueries (w : SpendWitness) (key : SpendingKey) : List Query :=
  key.tagQueries ++ w.inputs.flatMap InputWitness.queries ++ w.outputs.map Note.commitmentQuery

/-- A root that some leaves had before, and the queries that led to it. -/
def Sealed (queries : Set Query) (leaves : List Bytes32) (root : Bytes32) : Prop :=
  ∃ older, older <+: leaves ∧ root = leavesRoot older ∧
    ∀ query ∈ treeQueries older, query ∈ queries

theorem Sealed.append {queries : Set Query} {leaves : List Bytes32} {root : Bytes32}
    (rooted : Sealed queries leaves root) (more : List Bytes32) :
    Sealed queries (leaves ++ more) root := by
  obtain ⟨older, earlier, rest⟩ := rooted
  exact ⟨older, earlier.trans (List.prefix_append leaves more), rest⟩

namespace Balanced

variable {queries : Set Query} {leaves : List Bytes32} {published : Finset Nullifier} {total : ℕ}

/-- An input removes its value, which is zero for a dummy. -/
theorem input (balanced : Balanced queries leaves published total) (free : CollisionFree queries)
    {w : SpendWitness} {pi : SpendPublicInputs} {i : ℕ} {input : InputWitness}
    (satisfied : InputSatisfied w pi i input) (rooted : Sealed queries leaves pi.anchor.root)
    {key : SpendingKey} (nkEq : w.spenderNk = key.nk) (tagEq : w.spenderAddrTag = key.addrTag)
    (tagged : ∀ query ∈ key.tagQueries, query ∈ queries)
    (hashed : ∀ query ∈ input.queries, query ∈ queries)
    (fresh : input.note.nullifier w.spenderNk ∉ published) :
    ∃ rest, rest + input.note.value.toNat = total ∧
      Balanced queries leaves (insert (input.note.nullifier w.spenderNk) published) rest := by
  obtain ⟨notes, pool, account⟩ := balanced
  cases real : input.isDummy with
  | true =>
      refine ⟨total, by simp [satisfied.dummy_value real], notes, pool, ?_⟩
      exact account.publish (Finset.subset_insert _ _)
  | false =>
      obtain ⟨older, earlier, rootEq, tree⟩ := rooted
      simp only [InputWitness.queries, real, Bool.false_eq_true, if_false] at hashed
      have noteMem := hashed _ (List.mem_cons_self ..)
      have verified := satisfied.member real
      rw [rootEq] at verified
      have leaf := committed_of_verifyPath free tree noteMem
        (fun query member => hashed query (List.mem_cons_of_mem _ member)) verified
      obtain ⟨later, rfl⟩ := earlier
      have leafNow : (older ++ later)[input.path.position % 2 ^ treeDepth]? =
          some input.note.commitment.bytes := by
        rw [List.getElem?_append_left (List.getElem?_eq_some_iff.mp leaf).1, leaf]
      have found := account.getElem?_of_leaf free noteMem leafNow
      have owned : key.addrTag = input.note.addrTag := by
        rw [satisfied.owned real, tagEq]
      rw [nkEq] at fresh ⊢
      exact account.spend free found tagged owned fresh

/-- Committing fresh notes adds their values. -/
theorem commit (balanced : Balanced queries leaves published total) (fresh : List Note)
    (queried : ∀ note ∈ fresh, note.commitmentQuery ∈ queries) :
    Balanced queries (leaves ++ fresh.map fun note => note.commitment.bytes) published
      (total + valueSum fresh) := by
  obtain ⟨notes, pool, account⟩ := balanced
  exact account.commit fresh queried

/-- A satisfied transfer of one key keeps the unspent total: the inputs remove
what the outputs add. -/
theorem transfer (balanced : Balanced queries leaves published total)
    (free : CollisionFree queries) {w : SpendWitness} {pi : SpendPublicInputs}
    (satisfied : Satisfied w pi) (unminted : w.mintValue = 0)
    (rooted : Sealed queries leaves pi.anchor.root) {key : SpendingKey}
    (nkEq : w.spenderNk = key.nk) (tagEq : w.spenderAddrTag = key.addrTag)
    (hashed : ∀ query ∈ spendQueries w key, query ∈ queries) {firstNf secondNf : Nullifier}
    (nullifiers : pi.nullifiers = [firstNf, secondNf]) (distinct : firstNf ≠ secondNf)
    (firstFresh : firstNf ∉ published) (secondFresh : secondNf ∉ published) :
    Balanced queries (leaves ++ pi.commitments.map Commitment.bytes)
      (published ∪ pi.nullifiers.toFinset) total := by
  obtain ⟨first, second, inputs⟩ := List.length_eq_two.mp satisfied.inputs_length
  obtain ⟨out, change, outputs⟩ := List.length_eq_two.mp satisfied.outputs_length
  obtain ⟨cm, cm', commitments⟩ := List.length_eq_two.mp satisfied.commitments_length
  have tagged (query : Query) (member : query ∈ key.tagQueries) : query ∈ queries :=
    hashed query (by simp [spendQueries, member])
  have firstSat := satisfied.input 0 first (by simp [inputs])
  have secondSat := satisfied.input 1 second (by simp [inputs])
  have outSat := satisfied.output 0 out (by simp [outputs])
  have changeSat := satisfied.output 1 change (by simp [outputs])
  have firstNfEq : firstNf = first.note.nullifier w.spenderNk := by
    simpa [nullifiers] using firstSat.nullifier
  have secondNfEq : secondNf = second.note.nullifier w.spenderNk := by
    simpa [nullifiers] using secondSat.nullifier
  have outEq : cm = out.commitment := by simpa [commitments] using outSat.commitment
  have changeEq : cm' = change.commitment := by simpa [commitments] using changeSat.commitment
  obtain ⟨rest, firstSpent, afterFirst⟩ := balanced.input free firstSat rooted nkEq tagEq tagged
    (fun query member => hashed query (by simp [spendQueries, inputs, member]))
    (firstNfEq ▸ firstFresh)
  rw [← firstNfEq] at afterFirst
  have stillFresh : secondNf ∉ insert firstNf published := by
    simp [distinct.symm, secondFresh]
  obtain ⟨rest', secondSpent, afterSecond⟩ := afterFirst.input free secondSat rooted nkEq tagEq
    tagged (fun query member => hashed query (by simp [spendQueries, inputs, member]))
    (secondNfEq ▸ stillFresh)
  rw [← secondNfEq] at afterSecond
  have outQueried (note : Note) (member : note ∈ [out, change]) :
      note.commitmentQuery ∈ queries := by
    refine hashed _ ?_
    rw [spendQueries, outputs]
    exact List.mem_append_right _ (List.mem_map_of_mem member)
  have committed := afterSecond.commit [out, change] outQueried
  have balance : rest' + valueSum [out, change] = total := by
    have conserved := satisfied.balance
    simp only [inputs, outputs, unminted, List.map_cons, List.map_nil, valueSum, List.sum_cons,
      List.sum_nil, UInt64.toNat_zero] at conserved ⊢
    omega
  have nullifiersEq : insert secondNf (insert firstNf published) =
      published ∪ pi.nullifiers.toFinset := by
    rw [nullifiers]
    ext nf
    simp only [Finset.mem_insert, Finset.mem_union, List.mem_toFinset, List.mem_cons,
      List.not_mem_nil, or_false]
    tauto
  rw [balance, nullifiersEq] at committed
  simpa [commitments, outEq, changeEq] using committed

end Balanced

/-! ## Runs -/

/-- Queries behind the accepted proofs of a batch. -/
def batchQueries {verifier : SpendVerifier} (extractor : KnowledgeExtractor verifier)
    (batch : List TxV1) : List Query :=
  (batch.filter fun tx => decide (verifier.verify tx.toPublicInputs tx.proof = .ok ())).flatMap
    fun tx => spendQueries (extractor.witness tx.toPublicInputs tx.proof)
      (extractor.key tx.toPublicInputs tx.proof)

/-- Queries behind a run: the roots its transactions may refer to, its proofs and
its reward notes. -/
def Ledger.runQueries {verifier : SpendVerifier} (extractor : KnowledgeExtractor verifier)
    (self : Ledger) : List (List TxV1) → List Query
  | [] => []
  | batch :: rest => treeQueries self.tree.leaves ++ batchQueries extractor batch ++
      self.rewardNotes.map Note.commitmentQuery ++
      (self.applyCheckpoint verifier batch).1.runQueries extractor rest

/-- Exact amount minted by a run. -/
def issued (summaries : List CheckpointSummary) : ℕ :=
  (summaries.map fun summary => shareSum summary.rewards.shares).sum

/-- The leaves balance the supply, and every anchor is a root they once had. -/
structure Sound (queries : Set Query) (ledger : Ledger) : Prop where
  balanced : Balanced queries ledger.tree.leaves ledger.nullifiers ledger.supply.toNat
  anchors : (∀ query ∈ treeQueries ledger.tree.leaves, query ∈ queries) →
    ∀ anchor ∈ ledger.tree.anchors, Sealed queries ledger.tree.leaves anchor.root

omit [Blake3] in
theorem mem_of_mem_evict {height : ℕ} {anchors : List Anchor} {anchor : Anchor}
    (member : anchor ∈ CommitmentTree.evict height anchors) : anchor ∈ anchors :=
  (List.dropWhile_suffix _).subset member

namespace Ledger

variable {verifier : SpendVerifier} {queries : Set Query}

/-- What has been staged keeps the balance. -/
def StagedBalanced (queries : Set Query) (self : Ledger) (total : ℕ) (position : ℕ × Staged) :
    Prop :=
  Balanced queries (self.tree.leaves ++ position.2.commitments.map Commitment.bytes)
    (self.nullifiers ∪ position.2.seenThisCheckpoint) total

theorem stagedBalanced_stageStep (extractor : KnowledgeExtractor verifier) (self : Ledger)
    (free : CollisionFree queries)
    (anchors : ∀ anchor ∈ self.tree.anchors, Sealed queries self.tree.leaves anchor.root)
    {total : ℕ} (position : ℕ × Staged) (tx : TxV1)
    (balanced : self.StagedBalanced queries total position)
    (hashed : ∀ query ∈ batchQueries extractor [tx], query ∈ queries) :
    self.StagedBalanced queries total (self.stageStep verifier position tx).1 := by
  obtain ⟨i, staged⟩ := position
  simp only [stageStep, stageTx_eq, StagedBalanced]
  cases verdictEq : self.verdict verifier staged.seenThisCheckpoint staged.quota tx with
  | some reason => exact balanced
  | none =>
      have acceptable := (self.verdict_eq_none_iff ..).mp verdictEq
      obtain ⟨-, ordered, -, verified⟩ := (validateStateless_ok_iff ..).mp acceptable.valid
      obtain ⟨satisfied, minted, nkEq, tagEq⟩ := extractor.sound _ _ verified
      have spends : batchQueries extractor [tx] =
          spendQueries (extractor.witness tx.toPublicInputs tx.proof)
            (extractor.key tx.toPublicInputs tx.proof) := by
        simp [batchQueries, verified]
      have fresh (nf : Nullifier) (member : nf ∈ tx.nullifiers.toList) :
          nf ∉ self.nullifiers ∪ staged.seenThisCheckpoint :=
        fun spent => acceptable.fresh ⟨nf, member, Finset.mem_union.mp spent⟩
      have nullifiersEq : tx.toPublicInputs.nullifiers =
          [tx.nullifiers.get 0, tx.nullifiers.get 1] := tx.nullifiers_toList
      have transferred := balanced.transfer free
        ((checkSpendStatement_ok_iff _ _).mp satisfied) minted
        ((anchors _ acceptable.anchor).append _) nkEq tagEq (spends ▸ hashed) nullifiersEq
        (fun equal => absurd ordered (by rw [equal]; exact lt_irrefl _))
        (fresh _ (by rw [tx.nullifiers_toList]; simp))
        (fresh _ (by rw [tx.nullifiers_toList]; simp))
      simpa [settle, Staged.accept, TxV1.toPublicInputs] using transferred

theorem balanced_stageAll (extractor : KnowledgeExtractor verifier) {self : Ledger}
    (free : CollisionFree queries) (sound : Sound queries self)
    (tree : ∀ query ∈ treeQueries self.tree.leaves, query ∈ queries) (batch : List TxV1)
    (hashed : ∀ query ∈ batchQueries extractor batch, query ∈ queries) :
    Balanced queries
      (self.tree.leaves ++ (self.stageAll verifier batch).commitments.map Commitment.bytes)
      (self.nullifiers ∪ (self.stageAll verifier batch).nullifiers.toFinset)
      self.supply.toNat := by
  have initial : self.StagedBalanced queries self.supply.toNat (0, Staged.init self.quota) := by
    simpa [StagedBalanced, Staged.init] using sound.balanced
  have hashedAlone (tx : TxV1) (member : tx ∈ batch) :
      ∀ query ∈ batchQueries extractor [tx], query ∈ queries := by
    intro query queried
    refine hashed query ?_
    simp only [batchQueries, List.mem_flatMap, List.mem_filter, List.mem_singleton] at queried ⊢
    obtain ⟨other, ⟨rfl, verified⟩, found⟩ := queried
    exact ⟨other, ⟨member, verified⟩, found⟩
  have run := Machine.run_invariant (self.stageStep verifier) _ _
    (self.stagedBalanced_stageStep extractor free (sound.anchors tree)) initial
    (Machine.along_of_forall (fun tx member _ => hashedAlone tx member) _)
  have tracks := self.tracks_stageAll verifier batch
  rw [StagedBalanced, ← stageFrom_eq_run] at run
  rw [tracks.nullifiers, ← tracks.seen]
  exact run

theorem valueSum_rewardNotes (self : Ledger) :
    valueSum self.rewardNotes = shareSum self.nextRewards.shares := by
  simp [valueSum, rewardNotes, shareSum, rewardNote, Function.comp_def]

theorem sound_applyCheckpoint (extractor : KnowledgeExtractor verifier) {self : Ledger}
    (free : CollisionFree queries) (sound : Sound queries self)
    (tree : ∀ query ∈ treeQueries self.tree.leaves, query ∈ queries) (batch : List TxV1)
    (hashed : ∀ query ∈ batchQueries extractor batch, query ∈ queries)
    (minted : ∀ query ∈ self.rewardNotes.map Note.commitmentQuery, query ∈ queries)
    (fits : self.supply.toNat + shareSum self.nextRewards.shares < 2 ^ 64) :
    Sound queries (self.applyCheckpoint verifier batch).1 := by
  have staged := self.balanced_stageAll extractor free sound tree batch hashed
  have rewarded := staged.commit self.rewardNotes fun note member =>
    minted _ (List.mem_map_of_mem member)
  constructor
  · rw [applyCheckpoint_leaves, applyCheckpoint_nullifiers,
      self.toNat_supply_applyCheckpoint verifier batch fits, ← self.valueSum_rewardNotes,
      ← List.append_assoc]
    exact rewarded
  · intro nextTree anchor member
    rw [applyCheckpoint_anchors] at member
    rcases List.mem_append.mp (mem_of_mem_evict member) with earlier | current
    · rw [applyCheckpoint_leaves]
      exact (sound.anchors tree anchor earlier).append _
    · obtain rfl := List.mem_singleton.mp current
      exact ⟨_, List.prefix_refl _, rfl, nextTree⟩

theorem sound_run (extractor : KnowledgeExtractor verifier) (free : CollisionFree queries)
    (batches : List (List TxV1)) :
    ∀ {self : Ledger}, Sound queries self →
      (∀ query ∈ self.runQueries extractor batches, query ∈ queries) →
      self.supply.toNat + issued (self.run verifier batches).2 < 2 ^ 64 →
      Sound queries (self.run verifier batches).1 := by
  induction batches with
  | nil => exact fun sound _ _ => sound
  | cons batch rest ih =>
      intro self sound hashed fits
      simp only [run, Machine.run_cons, issued, List.map_cons, List.sum_cons,
        applyCheckpoint_summary_rewards] at fits
      have fitsNow : self.supply.toNat + shareSum self.nextRewards.shares < 2 ^ 64 := by omega
      simp only [runQueries, List.forall_mem_append] at hashed
      obtain ⟨⟨⟨tree, proofs⟩, minted⟩, later⟩ := hashed
      have next := self.sound_applyCheckpoint extractor free sound tree batch proofs minted fitsNow
      refine ih next later ?_
      rw [self.toNat_supply_applyCheckpoint verifier batch fitsNow]
      simp only [run, issued]
      omega

end Ledger

/-- A genesis allocation of note values that fit balances its supply. -/
theorem Ledger.sound_genesis (queries : Set Query) (emission : EmissionParams)
    (validators : List ValidatorInfo) (difficultyBits : ℕ) (genesisNotes : List Note)
    (queried : ∀ note ∈ genesisNotes, note.commitmentQuery ∈ queries)
    (fits : valueSum genesisNotes < 2 ^ 64) :
    Sound queries (Ledger.genesis emission validators difficultyBits
      (genesisNotes.map fun note => (note.commitment, note.value))) ∧
    (Ledger.genesis emission validators difficultyBits
      (genesisNotes.map fun note => (note.commitment, note.value))).supply.toNat =
        valueSum genesisNotes := by
  have supply : (genesisNotes.foldl (fun total (note : Note) => total + note.value) 0).toNat =
      valueSum genesisNotes := Checked.toNat_total Note.value genesisNotes fits
  rw [Ledger.genesis_eq]
  simp only [List.map_map, List.foldl_map, Function.comp_def]
  refine ⟨⟨?_, ?_⟩, supply⟩
  · rw [supply]
    refine ⟨genesisNotes, CoinPool.ofValues (genesisNotes.map fun note => note.value.toNat), ?_⟩
    exact ⟨rfl, rfl, queried, by simp [CoinPool.ofValues], CoinPool.unspent_ofValues _⟩
  · intro tree anchor member
    obtain rfl := List.mem_singleton.mp member
    exact ⟨_, List.prefix_refl _, rfl, tree⟩

/-- A note said to be behind a leaf, with the key that owns it, if any. -/
structure Holding where
  position : ℕ
  note : Note
  owner : Option SpendingKey
  deriving DecidableEq

/-- The note is committed and its owner has not published its nullifier. -/
def Holding.Unspent (holding : Holding) (ledger : Ledger) : Prop :=
  ledger.tree.leaves[holding.position]? = some holding.note.commitment.bytes ∧
  match holding.owner with
  | some key => key.addrTag = holding.note.addrTag ∧
      holding.note.nullifier key.nk ∉ ledger.nullifiers
  | none => ∀ key : SpendingKey, key.addrTag ≠ holding.note.addrTag

/-- Queries that identify a holding. -/
def Holding.queries (holding : Holding) : List Query :=
  holding.note.commitmentQuery :: (holding.owner.map SpendingKey.tagQueries).getD []

/-- Unspent holdings at distinct positions are worth at most the unspent total. -/
theorem Account.sum_le {queries : Set Query} {ledger : Ledger} {total : ℕ} {notes : List Note}
    {pool : CoinPool}
    (account : Account queries ledger.tree.leaves ledger.nullifiers total notes pool)
    (free : CollisionFree queries) {held : List Holding}
    (distinct : (held.map Holding.position).Nodup)
    (unspent : ∀ holding ∈ held, holding.Unspent ledger)
    (queried : ∀ holding ∈ held, ∀ query ∈ holding.queries, query ∈ queries) :
    (held.map fun holding => holding.note.value.toNat).sum ≤ total := by
  have found (holding : Holding) (member : holding ∈ held) :
      notes[holding.position]? = some holding.note :=
    account.getElem?_of_leaf free (queried holding member _ (List.mem_cons_self ..))
      (unspent holding member).1
  have inRange (position : ℕ) (member : position ∈ (held.map Holding.position).toFinset) :
      position < pool.values.length := by
    obtain ⟨holding, holdingMem, rfl⟩ := List.mem_map.mp (List.mem_toFinset.mp member)
    rw [account.length_values]
    exact (List.getElem?_eq_some_iff.mp (found holding holdingMem)).1
  have avoids (position : ℕ) (member : position ∈ (held.map Holding.position).toFinset) :
      position ∉ pool.spent := by
    obtain ⟨holding, holdingMem, rfl⟩ := List.mem_map.mp (List.mem_toFinset.mp member)
    have owned := (unspent holding holdingMem).2
    cases owner : holding.owner with
    | some key =>
        rw [owner] at owned
        refine account.not_mem_spent free (found holding holdingMem) (fun query queryMem => ?_)
          owned.1 owned.2
        exact queried holding holdingMem query (by simp [Holding.queries, owner, queryMem])
    | none =>
        rw [owner] at owned
        intro spent
        obtain ⟨note, key, noteFound, -, keyOwns, -⟩ := account.spender _ spent
        obtain rfl : holding.note = note := by simpa [found holding holdingMem] using noteFound
        exact owned key keyOwns
  calc (held.map fun holding => holding.note.value.toNat).sum
      = (held.map fun holding => pool.value holding.position).sum := by
        congr 1
        exact List.map_congr_left fun holding member =>
          (account.value_of_getElem? (found holding member)).symm
    _ = ∑ position ∈ (held.map Holding.position).toFinset, pool.value position := by
        rw [List.sum_toFinset _ distinct, List.map_map]
        rfl
    _ ≤ pool.unspent := pool.sum_le_unspent _ inRange avoids
    _ = total := account.unspent

/-- Queries behind a genesis allocation, a run from it and the holdings after it. -/
def auditQueries {verifier : SpendVerifier} (extractor : KnowledgeExtractor verifier)
    (genesisNotes : List Note) (genesis : Ledger) (batches : List (List TxV1))
    (held : List Holding) : List Query :=
  genesisNotes.map Note.commitmentQuery ++
    (genesis.runQueries extractor batches ++ held.flatMap Holding.queries)

/-- No invisible inflation.  After any run from a genesis allocation of notes,
under a verifier whose proofs are knowledge sound, with no overflow of the
supply and no collision among the hashes behind the run and the holdings, unspent
notes are worth at most the total supply. -/
theorem unspent_le_totalSupply {verifier : SpendVerifier}
    (extractor : KnowledgeExtractor verifier) {emission : EmissionParams}
    {validators : List ValidatorInfo} {difficultyBits : ℕ} {genesisNotes : List Note}
    {genesis : Ledger}
    (genesisEq : genesis = Ledger.genesis emission validators difficultyBits
      (genesisNotes.map fun note => (note.commitment, note.value)))
    {batches : List (List TxV1)} {held : List Holding}
    (free : CollisionFree
      {query | query ∈ auditQueries extractor genesisNotes genesis batches held})
    (fits : valueSum genesisNotes + issued (genesis.run verifier batches).2 < 2 ^ 64)
    (distinct : (held.map Holding.position).Nodup)
    (unspent : ∀ holding ∈ held, holding.Unspent (genesis.run verifier batches).1) :
    (held.map fun holding => holding.note.value.toNat).sum ≤
      (genesis.run verifier batches).1.totalSupply.toNat := by
  have runMem (query : Query) (member : query ∈ genesis.runQueries extractor batches) :
      query ∈ auditQueries extractor genesisNotes genesis batches held :=
    List.mem_append_right _ (List.mem_append_left _ member)
  obtain ⟨sound, supply⟩ := Ledger.sound_genesis
    {query | query ∈ auditQueries extractor genesisNotes genesis batches held}
    emission validators difficultyBits genesisNotes
    (fun note member => List.mem_append_left _ (List.mem_map_of_mem member)) (by omega)
  rw [← genesisEq] at sound supply
  obtain ⟨notes, pool, account⟩ :=
    (Ledger.sound_run extractor free batches sound runMem (supply ▸ fits)).balanced
  apply account.sum_le free distinct unspent
  intro holding member query queried
  exact List.mem_append_right _ (List.mem_append_right _
    (List.mem_flatMap.mpr ⟨holding, member, queried⟩))

end Audit

/-! ## A sample run

One checkpoint accepts the sample spend and rewards one validator. -/

section Samples

open Reference

theorem boundSpend_ok : checkSpendStatement boundSpend sampleTx.toPublicInputs = .ok () := by
  decide +kernel

def sampleExtractor : KnowledgeExtractor sampleVerifier where
  witness _ _ := boundSpend
  key _ _ := sampleKey
  sound pi _ verified := by
    have known : pi = sampleTx.toPublicInputs := by
      by_contra unknown
      simp [sampleVerifier, unknown] at verified
    rw [known]
    exact ⟨boundSpend_ok, rfl, rfl, rfl⟩

/-- The outputs of the spend and the reward, with their owners. -/
def sampleHeld : List Holding :=
  [⟨1, boundSpend.outputs[0], some recipientKey⟩, ⟨2, boundSpend.outputs[1], some sampleKey⟩,
    ⟨3, rewardNote sampleValidators 1 ⟨0, 9⟩, some sampleKey⟩]

/-- The leaves and nullifiers of the sample run, what it issues, and that its hashes do
not collide. -/
theorem sampleRun_facts :
    (∀ holding ∈ sampleHeld,
      (sampleLedger.run sampleVerifier [[sampleTx]]).1.tree.leaves[holding.position]? =
        some holding.note.commitment.bytes) ∧
    (sampleLedger.run sampleVerifier [[sampleTx]]).1.nullifiers =
      sampleTx.nullifiers.toList.toFinset ∧
    valueSum [sampleNote] + issued (sampleLedger.run sampleVerifier [[sampleTx]]).2 < 2 ^ 64 ∧
    (auditQueries sampleExtractor [sampleNote] sampleLedger [[sampleTx]] sampleHeld).Pairwise
      fun left right => Bytes.ofLittleEndian (digest left).toList =
        Bytes.ofLittleEndian (digest right).toList → left = right := by
  decide +kernel

/-- The sample run has issued 109 units, all of them held unspent. -/
theorem unspent_of_sampleRun :
    (sampleHeld.map fun holding => holding.note.value.toNat).sum ≤
        (sampleLedger.run sampleVerifier [[sampleTx]]).1.totalSupply.toNat ∧
      (sampleHeld.map fun holding => holding.note.value.toNat).sum = 109 := by
  obtain ⟨leaves, published, fits, apart⟩ := sampleRun_facts
  have unspent : ∀ holding ∈ sampleHeld,
      holding.Unspent (sampleLedger.run sampleVerifier [[sampleTx]]).1 := by
    intro holding member
    refine ⟨leaves holding member, ?_⟩
    rw [published]
    simp only [sampleHeld, List.mem_cons, List.not_mem_nil, or_false] at member
    rcases member with rfl | rfl | rfl <;> exact ⟨by decide +kernel, by decide +kernel⟩
  have genesis : sampleLedger = Ledger.genesis sampleEmission sampleValidators 0
      ([sampleNote].map fun note => (note.commitment, note.value)) := rfl
  exact ⟨unspent_le_totalSupply sampleExtractor genesis
    (.of_pairwise apart) fits (by decide +kernel) unspent,
    by decide +kernel⟩

end Samples

end ShieldedLedger
