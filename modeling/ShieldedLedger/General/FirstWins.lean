import Mathlib.Data.List.Forall2
import Mathlib.Data.List.Induction
import Mathlib.Order.Basic
import Mathlib.Order.Compare
import Mathlib.Order.Lattice
import Std.Data.ExtTreeMap

/-!
# Ordered deduplication, first occurrence wins

Inserting items into an ordered map under a key, unless the key is taken, and
reading the map back in key order keeps the first item of every key and sorts
by key.  The result is determined by which item comes first for each key.
-/

namespace FirstWins

variable {α κ : Type} [LinearOrder κ]

/-- The ordered map from every key to its first item. -/
def table (key : α → κ) (items : List α) : Std.ExtTreeMap κ α :=
  items.foldl (fun seen item => seen.insertIfNew (key item) item) ∅

/-- The first item of every key, in key order. -/
def order (key : α → κ) (items : List α) : List α := (table key items).toList.map Prod.snd

/-- The first item of a key. -/
def first (key : α → κ) (wanted : κ) (items : List α) : Option α :=
  items.find? fun item => decide (key item = wanted)

variable {key : α → κ} {items : List α}

theorem first_some {wanted : κ} {item : α} (found : first key wanted items = some item) :
    item ∈ items ∧ key item = wanted :=
  ⟨List.mem_of_find?_eq_some found, by simpa using List.find?_some found⟩

theorem first_isSome_iff {wanted : κ} :
    (first key wanted items).isSome = true ↔ wanted ∈ items.map key := by
  simp [first, List.find?_isSome]

/-- The first item of a longer list is that of its front, if there is one. -/
theorem first_append (wanted : κ) (items more : List α) :
    first key wanted (items ++ more) =
      (first key wanted items).or (first key wanted more) :=
  List.find?_append

theorem getElem?_table (wanted : κ) : (table key items)[wanted]? = first key wanted items := by
  induction items using List.reverseRecOn with
  | nil => simp [table, first]
  | append_singleton items item ih =>
      have step : table key (items ++ [item]) =
          (table key items).insertIfNew (key item) item := by
        simp [table]
      rw [step, Std.ExtTreeMap.getElem?_insertIfNew, first, List.find?_append, ← first, ih]
      simp only [Std.LawfulEqCmp.compare_eq_iff_eq]
      by_cases same : key item = wanted
      · subst same
        cases found : first key (key item) items with
        | none =>
            have absent : key item ∉ table key items := by
              rw [Std.ExtTreeMap.mem_iff_isSome_getElem?, ih, found]
              simp
            simp [absent]
        | some earlier =>
            have present : key item ∈ table key items := by
              rw [Std.ExtTreeMap.mem_iff_isSome_getElem?, ih, found]
              rfl
            simp [present]
      · simp [same]

theorem mem_toList_table {entry : κ × α} :
    entry ∈ (table key items).toList ↔ first key entry.1 items = some entry.2 := by
  rw [← getElem?_table]
  exact Std.ExtTreeMap.mem_toList_iff_getElem?_eq_some

/-- An item is in the order exactly when it is the first of its key. -/
theorem mem_order {item : α} : item ∈ order key items ↔ first key (key item) items = some item := by
  simp only [order, List.mem_map, Prod.exists, exists_eq_right]
  constructor
  · rintro ⟨wanted, member⟩
    have found := mem_toList_table.mp member
    rwa [(first_some found).2]
  · exact fun found => ⟨key item, mem_toList_table.mpr found⟩

/-- The order increases strictly in the key. -/
theorem pairwise_order : (order key items).Pairwise fun left right => key left < key right := by
  rw [order, List.pairwise_map]
  refine (table key items).ordered_keys_toList.imp_of_mem ?_
  intro left right leftMem rightMem below
  rw [(first_some (mem_toList_table.mp leftMem)).2, (first_some (mem_toList_table.mp rightMem)).2]
  exact compare_lt_iff_lt.mp below

/-- The order is the only strictly increasing list of first items. -/
theorem order_eq {sorted : List α}
    (increasing : sorted.Pairwise fun left right => key left < key right)
    (same : ∀ item, item ∈ sorted ↔ first key (key item) items = some item) :
    order key items = sorted := by
  have nodup {list : List α} (pairwise : list.Pairwise fun left right => key left < key right) :
      list.Nodup := by
    apply pairwise.imp
    intro left right below equal
    rw [equal] at below
    exact lt_irrefl _ below
  refine List.Perm.eq_of_pairwise (fun left right _ _ below above => ?_) pairwise_order increasing
    ((List.perm_ext_iff_of_nodup (nodup pairwise_order) (nodup increasing)).mpr fun item => ?_)
  · exact absurd above (lt_asymm below)
  · rw [mem_order, same]

/-- Only the first item of each key matters. -/
theorem order_congr {items' : List α}
    (same : ∀ wanted, first key wanted items = first key wanted items') :
    order key items = order key items' := by
  apply order_eq pairwise_order
  intro item
  rw [mem_order, same]

/-- The keys of the order are those of the items, each once. -/
theorem mem_map_order {wanted : κ} :
    wanted ∈ (order key items).map key ↔ wanted ∈ items.map key := by
  refine Iff.trans ?_ first_isSome_iff
  rw [List.mem_map, Option.isSome_iff_exists]
  constructor
  · rintro ⟨item, member, rfl⟩
    exact ⟨item, mem_order.mp member⟩
  · rintro ⟨item, found⟩
    obtain ⟨-, rfl⟩ := first_some found
    exact ⟨item, mem_order.mpr found, rfl⟩

/-- Ordering keeps the first item of every key. -/
theorem first_order (wanted : κ) : first key wanted (order key items) = first key wanted items := by
  cases found : first key wanted (order key items) with
  | none =>
      have absent : wanted ∉ items.map key := by
        rw [← mem_map_order, ← first_isSome_iff, found]
        exact Bool.false_ne_true
      have missing : ¬(first key wanted items).isSome = true := by rwa [first_isSome_iff]
      exact (Option.not_isSome_iff_eq_none.mp missing).symm
  | some item =>
      obtain ⟨member, rfl⟩ := first_some found
      exact (mem_order.mp member).symm

/-- Ordering twice is ordering once. -/
theorem order_order : order key (order key items) = order key items :=
  order_congr first_order

/-- A part that comes first may be ordered ahead of the rest. -/
theorem order_append_order (more : List α) :
    order key (order key items ++ more) = order key (items ++ more) := by
  apply order_congr
  intro wanted
  rw [first_append, first_append, first_order]

/-- Lists with the same keys are ordered alike, up to items of one key. -/
theorem forall₂_order {items' : List α}
    (sameKeys : ∀ wanted, wanted ∈ items.map key ↔ wanted ∈ items'.map key) :
    List.Forall₂ (fun left right => left ∈ items ∧ right ∈ items' ∧ key left = key right)
      (order key items) (order key items') := by
  have increasing (list : List α) : ((order key list).map key).Pairwise (· < ·) :=
    List.pairwise_map.mpr pairwise_order
  have keys : (order key items).map key = (order key items').map key := by
    refine List.Perm.eq_of_pairwise (fun _ _ _ _ below above => absurd above (lt_asymm below))
      (increasing items) (increasing items') ((List.perm_ext_iff_of_nodup
        ((increasing items).imp ne_of_lt) ((increasing items').imp ne_of_lt)).mpr fun wanted => ?_)
    rw [mem_map_order, mem_map_order, sameKeys]
  have related : List.Forall₂ (fun left right => key left = key right) (order key items)
      (order key items') := by
    rw [← List.forall₂_map_left_iff (f := key) (R := fun left right => left = key right),
      ← List.forall₂_map_right_iff (f := key) (R := fun left right => left = right),
      List.forall₂_eq_eq_eq]
    exact keys
  rw [List.forall₂_iff_zip] at related ⊢
  refine ⟨related.1, fun {left right} member => ?_⟩
  have members := List.of_mem_zip member
  exact ⟨(first_some (mem_order.mp members.1)).1, (first_some (mem_order.mp members.2)).1,
    related.2 member⟩

/-- Dropping items of other keys keeps the first item of a key. -/
theorem first_filter (keep : κ → Bool) {wanted : κ} (kept : keep wanted = true) :
    first key wanted (items.filter fun item => keep (key item)) = first key wanted items := by
  rw [first, List.find?_filter, first]
  congr 1
  funext item
  by_cases same : key item = wanted
  · simp [same, kept]
  · simp [same]

/-- Ordering a part of the items, chosen by key, chooses a part of the order. -/
theorem mem_order_filter (keep : κ → Bool) {item : α} :
    item ∈ order key (items.filter fun item => keep (key item)) ↔
      keep (key item) = true ∧ first key (key item) items = some item := by
  constructor
  · intro member
    have found := mem_order.mp member
    have kept : keep (key item) = true := (List.mem_filter.mp (first_some found).1).2
    exact ⟨kept, first_filter keep kept ▸ found⟩
  · rintro ⟨kept, found⟩
    exact mem_order.mpr ((first_filter keep kept).trans found)

theorem mem_first_toList {wanted : κ} {item : α} :
    item ∈ (first key wanted items).toList ↔
      key item = wanted ∧ first key (key item) items = some item := by
  rw [Option.mem_toList]
  constructor
  · intro found
    obtain ⟨-, rfl⟩ := first_some found
    exact ⟨rfl, found⟩
  · rintro ⟨rfl, found⟩
    exact found

/-- Cutting the order at a key: the smaller keys, the first item of the key, and
the larger keys. -/
theorem order_cut (wanted : κ) :
    order key items =
      order key (items.filter fun item => decide (key item < wanted)) ++
        ((first key wanted items).toList ++
          order key (items.filter fun item => decide (wanted < key item))) := by
  have smaller {item : α} : item ∈ order key (items.filter fun item => decide (key item < wanted))
      ↔ key item < wanted ∧ first key (key item) items = some item := by
    simpa using mem_order_filter fun other => decide (other < wanted)
  have larger {item : α} : item ∈ order key (items.filter fun item => decide (wanted < key item))
      ↔ wanted < key item ∧ first key (key item) items = some item := by
    simpa using mem_order_filter fun other => decide (wanted < other)
  refine order_eq ?_ fun item => ?_
  · refine List.pairwise_append.mpr ⟨pairwise_order, List.pairwise_append.mpr
      ⟨?_, pairwise_order, fun left leftMem right rightMem => ?_⟩,
      fun left leftMem right rightMem => ?_⟩
    · cases first key wanted items <;> simp
    · rw [(mem_first_toList.mp leftMem).1]
      exact (larger.mp rightMem).1
    · have below := (smaller.mp leftMem).1
      rcases List.mem_append.mp rightMem with same | above
      · rwa [(mem_first_toList.mp same).1]
      · exact below.trans (larger.mp above).1
  · rw [List.mem_append, List.mem_append, smaller, larger, mem_first_toList, ← or_and_right,
      ← or_and_right, and_iff_right (lt_trichotomy (key item) wanted)]

end FirstWins
