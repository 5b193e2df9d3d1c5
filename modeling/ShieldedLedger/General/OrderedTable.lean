import Mathlib.Data.Finset.Card
import Mathlib.Data.List.Basic
import Mathlib.Data.List.Induction
import Mathlib.Data.List.Sort
import Std.Data.ExtTreeMap

/-!
# Ordered tables

An implementation of ordered tables inserts and finds values by their keys and
lists the entries in strictly increasing key order, so the list is determined by
the lookups.  The rules below hold of every implementation that keeps these laws.
They compute the lookups, the list and the size of tables filled by insertion.
-/

/-- An implementation of tables ordered by key. -/
class OrderedTables where
  Table (κ : Type) [Ord κ] (α : Type) : Type
  empty {κ α : Type} [Ord κ] [Std.TransOrd κ] : Table κ α
  insert {κ α : Type} [Ord κ] [Std.TransOrd κ] : Table κ α → κ → α → Table κ α
  find? {κ α : Type} [Ord κ] [Std.TransOrd κ] : Table κ α → κ → Option α
  len {κ α : Type} [Ord κ] [Std.TransOrd κ] : Table κ α → ℕ
  iter {κ α : Type} [Ord κ] [Std.TransOrd κ] : Table κ α → List (κ × α)

namespace OrderedTables

/-- An insertion is found under its key and leaves the other keys; the entries are listed
in key order, and counted. -/
structure Lawful [OrderedTables] : Prop where
  find?_empty {κ α : Type} [Ord κ] [Std.TransOrd κ] (key : κ) :
    find? (empty : Table κ α) key = none
  find?_insert {κ α : Type} [Ord κ] [Std.TransOrd κ] (table : Table κ α) (key wanted : κ)
    (value : α) :
    find? (insert table key value) wanted =
      if compare key wanted = .eq then some value else find? table wanted
  increasing {κ α : Type} [Ord κ] [Std.TransOrd κ] (table : Table κ α) :
    (iter table).Pairwise fun left right => compare left.1 right.1 = .lt
  mem_iter {κ α : Type} [Ord κ] [Std.TransOrd κ] [Std.LawfulEqOrd κ] (table : Table κ α)
    (key : κ) (value : α) : (key, value) ∈ iter table ↔ find? table key = some value
  len_eq {κ α : Type} [Ord κ] [Std.TransOrd κ] (table : Table κ α) :
    len table = (iter table).length

variable {κ α : Type} [Ord κ] [Std.TransOrd κ]

/-- Entries in strictly increasing key order. -/
def Increasing (entries : List (κ × α)) : Prop :=
  entries.Pairwise fun left right => compare left.1 right.1 = .lt

theorem Increasing.nodup_keys {entries : List (κ × α)} (increasing : Increasing entries) :
    (entries.map Prod.fst).Nodup := by
  rw [List.Nodup, List.pairwise_map]
  apply increasing.imp
  intro left right below equal
  rw [equal] at below
  exact Std.OrientedCmp.not_lt_of_lt below below

/-- Increasing lists with the same entries are equal. -/
theorem Increasing.eq_of_mem_iff {left right : List (κ × α)} (leftIncreasing : Increasing left)
    (rightIncreasing : Increasing right) (same : ∀ entry, entry ∈ left ↔ entry ∈ right) :
    left = right := by
  refine List.Perm.eq_of_pairwise (fun one two _ _ below above => ?_) leftIncreasing
    rightIncreasing ((List.perm_ext_iff_of_nodup leftIncreasing.nodup_keys.of_map
      rightIncreasing.nodup_keys.of_map).mpr same)
  exact absurd above (Std.OrientedCmp.not_lt_of_lt below)

namespace Lawful

variable [Std.LawfulEqOrd κ] [OrderedTables] (lawful : OrderedTables.Lawful)
include lawful

/-- The list of a table is the increasing list with the table's lookups. -/
theorem iter_eq {table : Table κ α} {entries : List (κ × α)} (increasing : Increasing entries)
    (lookup : ∀ key value, find? table key = some value ↔ (key, value) ∈ entries) :
    iter table = entries := by
  apply Increasing.eq_of_mem_iff (lawful.increasing table) increasing
  rintro ⟨key, value⟩
  rw [lawful.mem_iter, lookup]

/-- The listed keys are those that are found. -/
theorem mem_keys {table : Table κ α} {key : κ} :
    key ∈ (iter table).map Prod.fst ↔ (find? table key).isSome = true := by
  rw [List.mem_map, Option.isSome_iff_exists]
  constructor
  · rintro ⟨⟨found, value⟩, member, rfl⟩
    exact ⟨value, (lawful.mem_iter _ _ _).mp member⟩
  · rintro ⟨value, found⟩
    exact ⟨(key, value), (lawful.mem_iter _ _ _).mpr found, rfl⟩

/-- A table has as many entries as keys. -/
theorem len_eq_card [DecidableEq κ] {table : Table κ α} {keys : Finset κ}
    (same : ∀ key, (find? table key).isSome = true ↔ key ∈ keys) : len table = keys.card := by
  have listed : ((iter table).map Prod.fst).toFinset = keys := by
    ext key
    rw [List.mem_toFinset, lawful.mem_keys, same]
  rw [lawful.len_eq, ← listed,
    List.toFinset_card_of_nodup (Increasing.nodup_keys (lawful.increasing table)), List.length_map]

/-- Items inserted at consecutive positions are found there; elsewhere the table is as it
was. -/
theorem find?_foldl_insert_from {ι β : Type} (print : β → α) (wrap : ι → β) (items : List ι)
    (start : ℕ) (table : Table ℕ α) (i : ℕ) :
    find? ((items.mapIdx fun i item => (start + i, wrap item)).foldl
      (fun table entry => insert table entry.1 (print entry.2)) table) i =
        if start ≤ i then (items[i - start]?.map fun item => print (wrap item)).or (find? table i)
        else find? table i := by
  induction items generalizing start table with
  | nil => simp
  | cons item rest ih =>
      have shift : (fun i item => (start + (i + 1), wrap item)) =
          fun i item => (start + 1 + i, wrap item) := by
        funext i item
        rw [Nat.add_right_comm, Nat.add_assoc]
      rw [List.mapIdx_cons, List.foldl_cons, shift, ih, lawful.find?_insert]
      simp only [Nat.add_zero, Std.LawfulEqOrd.compare_eq_iff_eq]
      rcases Nat.lt_trichotomy i start with before | rfl | after
      · rw [if_neg (by omega), if_neg (by omega), if_neg (by omega)]
      · rw [if_neg (by omega), if_pos rfl, if_pos (Nat.le_refl _), Nat.sub_self]
        simp
      · obtain ⟨k, rfl⟩ := Nat.exists_eq_add_of_lt after
        rw [if_pos (by omega), if_neg (by omega), if_pos (by omega),
          show start + k + 1 - (start + 1) = k by omega,
          show start + k + 1 - start = k + 1 by omega, List.getElem?_cons_succ]

/-- Items inserted at their own positions are found there; past them the table is as it
was. -/
theorem find?_foldl_insert_mapIdx {ι β : Type} (print : β → α) (wrap : ι → β) (items : List ι)
    (table : Table ℕ α) (i : ℕ) :
    find? ((items.mapIdx fun i item => (i, wrap item)).foldl
      (fun table entry => insert table entry.1 (print entry.2)) table) i =
        (items[i]?.map fun item => print (wrap item)).or (find? table i) := by
  have shifted := lawful.find?_foldl_insert_from print wrap items 0 table i
  simpa only [Nat.zero_add, Nat.zero_le, if_true, Nat.sub_zero] using shifted

/-- Keys inserted with one value have it; elsewhere the table is as it was. -/
theorem find?_foldl_insert_const {ι : Type} (key : ι → κ) (value : α) (items : List ι)
    (table : Table κ α) (wanted : κ) :
    let filled := items.foldl (fun table item => insert table (key item) value) table
    ((∃ item ∈ items, key item = wanted) → find? filled wanted = some value) ∧
      ((∀ item ∈ items, key item ≠ wanted) → find? filled wanted = find? table wanted) := by
  induction items generalizing table with
  | nil => simp
  | cons item rest ih =>
      obtain ⟨found, untouched⟩ := ih (insert table (key item) value)
      constructor
      · rintro ⟨other, member, same⟩
        by_cases later : ∃ item ∈ rest, key item = wanted
        · exact found later
        · obtain rfl : other = item := by
            rcases List.mem_cons.mp member with here | there
            · exact here
            · exact absurd ⟨other, there, same⟩ later
          rw [List.foldl_cons, untouched fun item member equal => later ⟨item, member, equal⟩,
            lawful.find?_insert, if_pos (Std.LawfulEqOrd.compare_eq_iff_eq.mpr same)]
      · intro absent
        rw [List.foldl_cons,
          untouched fun other member => absent other (List.mem_cons_of_mem _ member),
          lawful.find?_insert, if_neg]
        rw [Std.LawfulEqOrd.compare_eq_iff_eq]
        exact absent item (List.mem_cons_self ..)

/-- The keys of a table filled by insertion are those inserted. -/
theorem isSome_find?_foldl_insert {ι : Type} (key : ι → κ) (value : α) (items : List ι)
    (table : Table κ α) (wanted : κ) :
    (find? (items.foldl (fun table item => insert table (key item) value) table) wanted).isSome =
        true ↔
      (find? table wanted).isSome = true ∨ ∃ item ∈ items, key item = wanted := by
  obtain ⟨found, untouched⟩ := lawful.find?_foldl_insert_const key value items table wanted
  by_cases inserted : ∃ item ∈ items, key item = wanted
  · simp [found inserted, inserted]
  · rw [untouched fun item member same => inserted ⟨item, member, same⟩]
    simp [inserted]

end Lawful

/-! ## Tree maps -/

/-- Balanced trees implement ordered tables. -/
@[reducible] def ofTreeMaps : OrderedTables where
  Table κ _ α := Std.ExtTreeMap κ α
  empty := ∅
  insert table key value := table.insert key value
  find? table key := table[key]?
  len table := table.size
  iter table := table.toList

theorem lawful_ofTreeMaps : @Lawful ofTreeMaps := by
  let _ := ofTreeMaps
  exact {
    find?_empty := fun key => Std.ExtTreeMap.getElem?_empty
    find?_insert := fun table key wanted value => Std.ExtTreeMap.getElem?_insert
    increasing := fun table => table.ordered_keys_toList
    mem_iter := fun table key value => Std.ExtTreeMap.mem_toList_iff_getElem?_eq_some
    len_eq := fun table => Std.ExtTreeMap.length_toList.symm }

end OrderedTables
