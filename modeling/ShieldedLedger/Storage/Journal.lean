import ShieldedLedger.Storage.Contents

/-!
# Committing what is new

A commit of the leaves after those held, at the positions that follow, and of
the nullifiers not held yet leaves the same contents as a commit of everything.
The two differ only in the height that the nullifier table has for a nullifier:
a commit rewrites it for each nullifier that it names, and for no other.
-/

namespace ShieldedLedger

namespace Nullifier

/-- The key of a nullifier in the table. -/
def key (nf : Nullifier) : List UInt8 := nf.bytes.toList

theorem key_injective : Function.Injective key := by
  rintro ⟨left⟩ ⟨right⟩ equal
  exact congrArg Nullifier.mk (List.Vector.eq _ _ equal)

end Nullifier

section Commits

variable [Redb]

namespace Store

/-- The permanent state in bytes: the leaves and the nullifiers. -/
def permanentBytes (store : Store) : ℕ :=
  ((OrderedTables.iter store.leaves).map fun entry => entry.2.length).sum +
    ((OrderedTables.iter store.nullifiers).map fun entry => entry.1.length).sum

/-- The height under which the table has a nullifier. -/
def nullifierHeight (store : Store) (nf : Nullifier) : Option ℕ :=
  OrderedTables.find? store.nullifiers nf.key

section Heights

variable (lawful : OrderedTables.Lawful) (store : Store) (height : ℕ) (supply : UInt64)
  (newLeaves : List (ℕ × Commitment)) {newNullifiers : List Nullifier} {nf : Nullifier}
include lawful

/-- A commit has its own height for the nullifiers that it names. -/
theorem nullifierHeight_commit_of_mem (named : nf ∈ newNullifiers) :
    (store.commitCheckpoint height supply newLeaves newNullifiers).nullifierHeight nf =
      some height :=
  (lawful.find?_foldl_insert_const Nullifier.key height newNullifiers store.nullifiers
    nf.key).1 ⟨nf, named, rfl⟩

/-- A commit leaves the heights of the other nullifiers. -/
theorem nullifierHeight_commit_of_notMem (unnamed : nf ∉ newNullifiers) :
    (store.commitCheckpoint height supply newLeaves newNullifiers).nullifierHeight nf =
      store.nullifierHeight nf := by
  apply (lawful.find?_foldl_insert_const Nullifier.key height newNullifiers
    store.nullifiers nf.key).2
  intro other member same
  exact unnamed (Nullifier.key_injective same ▸ member)

end Heights

namespace Holds

variable {store : Store} {leaves : List Bytes32} {nullifiers : Finset Nullifier}

theorem mem_iff (holds : store.Holds leaves nullifiers) (nf : Nullifier) :
    (OrderedTables.find? store.nullifiers nf.key).isSome = true ↔ nf ∈ nullifiers := by
  rw [holds.nullifiers]
  constructor
  · rintro ⟨other, member, same⟩
    exact Nullifier.key_injective same ▸ member
  · exact fun member => ⟨nf, member, rfl⟩

/-- Membership is answered from the table. -/
theorem containsNullifier (holds : store.Holds leaves nullifiers) (nf : Nullifier) :
    store.containsNullifier nf = true ↔ nf ∈ nullifiers :=
  holds.mem_iff nf

variable (lawful : OrderedTables.Lawful)
include lawful

/-- Each nullifier is counted once. -/
theorem nullifierCount (holds : store.Holds leaves nullifiers) :
    store.nullifierCount = nullifiers.card := by
  have keys (key : List UInt8) : (OrderedTables.find? store.nullifiers key).isSome = true ↔
      key ∈ nullifiers.image Nullifier.key := by
    rw [holds.nullifiers, Finset.mem_image]
    rfl
  rw [Store.nullifierCount, lawful.len_eq_card keys,
    Finset.card_image_of_injective _ Nullifier.key_injective]

/-- Each leaf is stored once. -/
theorem leafCount (holds : store.Holds leaves nullifiers) :
    OrderedTables.len store.leaves = leaves.length := by
  have keys (i : ℕ) : (OrderedTables.find? store.leaves i).isSome = true ↔
      i ∈ Finset.range leaves.length := by
    rw [holds.leaves, Option.isSome_map, Finset.mem_range]
    simp
  rw [lawful.len_eq_card keys, Finset.card_range]

/-- What the store holds takes 32 bytes for each leaf and each nullifier. -/
theorem permanentBytes (holds : store.Holds leaves nullifiers) :
    store.permanentBytes = 32 * leaves.length + 32 * nullifiers.card := by
  have leafBytes : ∀ entry ∈ OrderedTables.iter store.leaves, entry.2.length = 32 := by
    rintro ⟨i, value⟩ member
    have found := (lawful.mem_iter ..).mp member
    rw [holds.leaves, Option.map_eq_some_iff] at found
    obtain ⟨leaf, -, equal⟩ := found
    rw [← equal, leaf.toList_length]
  have keyBytes : ∀ entry ∈ OrderedTables.iter store.nullifiers, entry.1.length = 32 := by
    intro entry member
    have key := lawful.mem_keys.mp (List.mem_map_of_mem (f := Prod.fst) member)
    obtain ⟨nf, -, equal⟩ := (holds.nullifiers _).mp key
    rw [← equal, nf.bytes.toList_length]
  rw [Store.permanentBytes, List.map_congr_left leafBytes, List.map_congr_left keyBytes,
    List.map_const', List.map_const', List.sum_replicate_nat, List.sum_replicate_nat,
    ← lawful.len_eq, ← lawful.len_eq, holds.leafCount lawful, Nat.mul_comm, Nat.mul_comm _ 32,
    ← holds.nullifierCount lawful]
  rfl

/-- A commit of the new leaves, at the positions after those held, and of the new
nullifiers adds them to the contents. -/
theorem commitNew (holds : store.Holds leaves nullifiers) (height : ℕ) (supply : UInt64)
    (fresh : List Bytes32) (spent : List Nullifier) :
    (store.commitCheckpoint height supply
      (fresh.mapIdx fun i leaf => (leaves.length + i, Commitment.mk leaf)) spent).Holds
        (leaves ++ fresh) (nullifiers ∪ spent.toFinset) := by
  constructor
  · intro i
    have written := lawful.find?_foldl_insert_from
      (fun cm : Commitment => cm.bytes.toList) Commitment.mk fresh leaves.length store.leaves i
    rw [Store.commitCheckpoint, written, holds.leaves]
    split
    · next past =>
        rw [List.getElem?_append_right past, List.getElem?_eq_none_iff.mpr past]
        exact Option.or_none
    · next inside =>
        rw [List.getElem?_append_left (Nat.lt_of_not_le inside)]
  · intro key
    rw [Store.commitCheckpoint, lawful.isSome_find?_foldl_insert, holds.nullifiers]
    simp only [Finset.mem_union, List.mem_toFinset, or_and_right, exists_or]

end Holds

end Store

end Commits

end ShieldedLedger
