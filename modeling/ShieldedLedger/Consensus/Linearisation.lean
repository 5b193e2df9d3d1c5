import ShieldedLedger.Consensus

/-!
# The canonical linearisation

The commit order of a round is the strictly increasing list of the first submitted
transactions of each digest.  Nothing else about the submission matters to it, so
ordering again changes nothing and a round may be ordered in batches.
-/

namespace ShieldedLedger

variable [Blake3]

/-- A list linearises a submission: it increases strictly in the binding digest, has the
digests of the submission, and holds the first transaction of each. -/
structure Linearises (submitted ordered : List TxV1) : Prop where
  increasing : (ordered.map TxV1.bindingDigest).Pairwise (· < ·)
  digests : ∀ digest, digest ∈ ordered.map TxV1.bindingDigest ↔
    digest ∈ submitted.map TxV1.bindingDigest
  first : ∀ tx ∈ ordered, FirstWins.first TxV1.bindingDigest tx.bindingDigest submitted = some tx

theorem linearises_commitOrder (submitted : List TxV1) :
    Linearises submitted (commitOrder submitted) where
  increasing := List.pairwise_map.mpr FirstWins.pairwise_order
  digests := fun _ => FirstWins.mem_map_order
  first := fun _ member => FirstWins.mem_order.mp member

/-- A submission has one linearisation. -/
theorem Linearises.eq_commitOrder {submitted ordered : List TxV1}
    (linearises : Linearises submitted ordered) : ordered = commitOrder submitted := by
  apply Eq.symm
  apply FirstWins.order_eq (List.pairwise_map.mp linearises.increasing)
  intro tx
  constructor
  · intro member
    exact linearises.first tx member
  · intro found
    have listed : tx.bindingDigest ∈ ordered.map TxV1.bindingDigest := by
      rw [linearises.digests]
      exact List.mem_map_of_mem (FirstWins.first_some found).1
    obtain ⟨other, member, same⟩ := List.mem_map.mp listed
    have foundOther := linearises.first other member
    rw [same] at foundOther
    cases Option.some.inj (found.symm.trans foundOther)
    exact member

/-- The commit order is the linearisation of the submission; it is idempotent and can be
computed in batches. -/
theorem commitOrder_canonical (submitted more : List TxV1) :
    (∀ ordered, Linearises submitted ordered ↔ ordered = commitOrder submitted) ∧
      commitOrder (commitOrder submitted) = commitOrder submitted ∧
      commitOrder (submitted ++ more) = commitOrder (commitOrder submitted ++ more) := by
  refine ⟨?_, FirstWins.order_order, (FirstWins.order_append_order more).symm⟩
  intro ordered
  constructor
  · exact Linearises.eq_commitOrder
  · intro equal
    rw [equal]
    exact linearises_commitOrder submitted

end ShieldedLedger
