import ShieldedLedger.Storage
import Mathlib.Data.Finset.Sort

/-!
# What a store holds

The leaf table of a store lists a sequence of leaves by position and the
nullifier table has the nullifiers of a set as its keys.  Loading reads both
back.  A commit writes over what is there without clearing it, so it leaves
exactly the new contents only when they extend the old ones.
-/

namespace ShieldedLedger

/-! ## Reading back -/

@[simp] theorem readBytes32_toList (message : String) (bytes : Bytes32) :
    readBytes32 message bytes.toList = .ok bytes := by
  rw [readBytes32, dif_pos bytes.toList_length]
  rfl

/-- Reading back what was printed, item by item. -/
theorem mapM_of_map {α β γ ε : Type} {project : α → γ} (print : β → γ) (read : γ → Except ε β)
    (roundTrip : ∀ value, read (print value) = .ok value) {items : List α} :
    ∀ {values : List β}, items.map project = values.map print →
      items.mapM (fun item => read (project item)) = .ok values := by
  induction items with
  | nil =>
      intro values printed
      rw [List.map_eq_nil_iff.mp printed.symm]
      rfl
  | cons item rest ih =>
      intro values printed
      cases values with
      | nil => cases printed
      | cons value values =>
          obtain ⟨first, others⟩ := List.cons.inj printed
          rw [List.mapM_cons, first, roundTrip, ih others]
          rfl

section Contents

variable [Redb]

/-- The tables hold exactly these leaves, by position, and these nullifiers. -/
structure Store.Holds (store : Store) (leaves : List Bytes32) (nullifiers : Finset Nullifier) :
    Prop where
  leaves : ∀ i : ℕ, OrderedTables.find? store.leaves i = leaves[i]?.map List.Vector.toList
  nullifiers : ∀ key, (OrderedTables.find? store.nullifiers key).isSome = true ↔
    ∃ nf ∈ nullifiers, nf.bytes.toList = key

namespace Store

variable (lawful : OrderedTables.Lawful)
include lawful

theorem holds_open : Store.open.Holds [] ∅ := by
  constructor
  · intro i
    simp [Store.open, lawful.find?_empty]
  · intro key
    simp [Store.open, lawful.find?_empty]

namespace Holds

variable {store : Store} {leaves : List Bytes32} {nullifiers : Finset Nullifier}

/-- The leaves come back in position order. -/
theorem loadLeaves (holds : store.Holds leaves nullifiers) : store.loadLeaves = .ok leaves := by
  have increasing : OrderedTables.Increasing
      (leaves.mapIdx fun i leaf => (i, leaf.toList)) := by
    apply List.pairwise_iff_getElem.mpr
    intro i j _ _ below
    simpa [Nat.compare_eq_lt] using below
  have table : OrderedTables.iter store.leaves = leaves.mapIdx fun i leaf => (i, leaf.toList) := by
    apply lawful.iter_eq increasing
    intro i value
    rw [holds.leaves i, Option.map_eq_some_iff, List.mem_mapIdx]
    constructor
    · rintro ⟨leaf, found, rfl⟩
      obtain ⟨inside, equal⟩ := List.getElem?_eq_some_iff.mp found
      exact ⟨i, inside, by rw [equal]⟩
    · rintro ⟨j, inside, equal⟩
      obtain ⟨rfl, rfl⟩ := Prod.mk.inj equal
      exact ⟨leaves[j], List.getElem?_eq_getElem inside, rfl⟩
  apply mapM_of_map List.Vector.toList _ (readBytes32_toList _)
  rw [table]
  apply List.ext_getElem?
  intro i
  simp [Function.comp_def]

/-- The nullifiers come back as a set. -/
theorem loadNullifiers (holds : store.Holds leaves nullifiers) :
    ∃ loaded, store.loadNullifiers = .ok loaded ∧ loaded.toFinset = nullifiers := by
  have keys (key : List UInt8) : key ∈ (OrderedTables.iter store.nullifiers).map Prod.fst ↔
      ∃ nf ∈ nullifiers, nf.bytes.toList = key := by
    rw [lawful.mem_keys, holds.nullifiers]
  obtain ⟨loaded, printed⟩ : (OrderedTables.iter store.nullifiers).map Prod.fst ∈
      Set.range (List.map fun nf : Nullifier => nf.bytes.toList) := by
    rw [Set.range_list_map]
    intro key member
    obtain ⟨nf, -, equal⟩ := (keys key).mp member
    exact ⟨nf, equal⟩
  refine ⟨loaded, ?_, ?_⟩
  · apply mapM_of_map (fun nf : Nullifier => nf.bytes.toList)
      (fun key => (readBytes32 "bad nullifier length" key).map Nullifier.mk) _ printed.symm
    intro nf
    rw [readBytes32_toList]
    rfl
  · ext nf
    have injective : Function.Injective fun nf : Nullifier => nf.bytes.toList := by
      rintro ⟨left⟩ ⟨right⟩ equal
      exact congrArg Nullifier.mk (List.Vector.eq _ _ equal)
    rw [List.mem_toFinset, ← List.mem_map_of_injective injective, printed, keys]
    constructor
    · rintro ⟨other, member, equal⟩
      exact injective equal ▸ member
    · exact fun member => ⟨nf, member, rfl⟩

/-- A commit of all leaves and nullifiers replaces the contents, provided that the
leaves extend those held and no nullifier is gone. -/
theorem commitCheckpoint (holds : store.Holds leaves nullifiers) (height : ℕ) (supply : UInt64)
    {leaves' : List Bytes32} (extension : leaves <+: leaves') {nullifiers' : Finset Nullifier}
    (grown : nullifiers ⊆ nullifiers') :
    (store.commitCheckpoint height supply (leaves'.mapIdx fun i leaf => (i, Commitment.mk leaf))
      (nullifiers'.sort (· ≤ ·))).Holds leaves' nullifiers' := by
  constructor
  · intro i
    have written := lawful.find?_foldl_insert_mapIdx
      (fun cm : Commitment => cm.bytes.toList) Commitment.mk leaves' store.leaves i
    rw [Store.commitCheckpoint, written, holds.leaves]
    cases found : leaves'[i]? with
    | some leaf => rfl
    | none =>
        have outside := List.getElem?_eq_none_iff.mp found
        rw [List.getElem?_eq_none_iff.mpr (extension.length_le.trans outside)]
        rfl
  · intro key
    rw [Store.commitCheckpoint, lawful.isSome_find?_foldl_insert, holds.nullifiers]
    constructor
    · rintro (⟨nf, old, equal⟩ | ⟨nf, new, equal⟩)
      · exact ⟨nf, grown old, equal⟩
      · exact ⟨nf, (Finset.mem_sort _).mp new, equal⟩
    · rintro ⟨nf, member, equal⟩
      exact .inr ⟨nf, (Finset.mem_sort _).mpr member, equal⟩

end Holds

end Store

end Contents

namespace Reference

/-- A database of tree maps. -/
scoped instance redb : Redb := OrderedTables.ofTreeMaps

theorem redb_lawful : OrderedTables.Lawful := OrderedTables.lawful_ofTreeMaps

end Reference

end ShieldedLedger
