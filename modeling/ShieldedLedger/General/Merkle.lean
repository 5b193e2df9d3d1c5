import Mathlib.Data.Set.Function
import Mathlib.Data.List.DropRight
import Mathlib.Data.List.GetD
import Mathlib.Tactic.Ring

/-!
# Padded Merkle trees

A tree of fixed depth is computed level by level from its leaves; an odd level
is padded with the root of an empty subtree of that height.  Reading a level at
an index past its end yields that empty root as well, so every level is a total
function of the index and each entry combines the two entries below it.

Binding is stated for a hash that has no collision among the pairs that were
actually hashed: those of the tree and those of the climbed path.
-/

namespace Merkle

variable {α : Type} (node : α → α → α) (leaf : α)

/-- Root of the empty subtree of a given height. -/
def emptyRoot : ℕ → α
  | 0 => leaf
  | height + 1 => node (emptyRoot height) (emptyRoot height)

/-- Combine neighbours, completing an odd level with the padding value. -/
def nextLevel (padding : α) : List α → List α
  | [] => []
  | [last] => [node last padding]
  | left :: right :: rest => node left right :: nextLevel padding rest

/-- The nodes at a given height above the leaves. -/
def level (leaves : List α) : ℕ → List α
  | 0 => leaves
  | height + 1 => nextLevel node (emptyRoot node leaf height) (level leaves height)

/-- The node at an index of a level; past the end the subtree is empty. -/
def entry (leaves : List α) (height index : ℕ) : α :=
  (level node leaf leaves height).getD index (emptyRoot node leaf height)

/-- Fold an authentication path: the parity of the index selects the side. -/
def climb : List α → ℕ → α → α
  | [], _, current => current
  | sibling :: siblings, index, current =>
      climb siblings (index / 2)
        (if index % 2 = 0 then node current sibling else node sibling current)

theorem getD_nextLevel (padding deep : α) (deepEq : deep = node padding padding)
    (nodes : List α) (index : ℕ) :
    (nextLevel node padding nodes).getD index deep =
      node (nodes.getD (2 * index) padding) (nodes.getD (2 * index + 1) padding) := by
  induction nodes using nextLevel.induct generalizing index with
  | case1 => simp [nextLevel, deepEq]
  | case2 last =>
      cases index with
      | zero => simp [nextLevel]
      | succ index => simp [nextLevel, deepEq, Nat.mul_succ]
  | case3 left right rest ih =>
      cases index with
      | zero => simp [nextLevel]
      | succ index => simpa [nextLevel, Nat.mul_succ] using ih index

/-- Each entry combines the two entries below it, inside and past the level. -/
theorem entry_succ (leaves : List α) (height index : ℕ) :
    entry node leaf leaves (height + 1) index =
      node (entry node leaf leaves height (2 * index))
        (entry node leaf leaves height (2 * index + 1)) :=
  getD_nextLevel node _ _ rfl _ index

@[simp] theorem entry_zero (leaves : List α) (index : ℕ) :
    entry node leaf leaves 0 index = leaves.getD index leaf := rfl

@[simp] theorem level_nil (height : ℕ) : level node leaf [] height = [] := by
  induction height with
  | zero => rfl
  | succ height ih => simp [level, ih, nextLevel]

/-! ## The complete tree -/

/-- Root of the complete binary tree of a given depth over a sequence of leaves. -/
def completeRoot : (depth : ℕ) → (leaves : ℕ → α) → α
  | 0, leaves => leaves 0
  | depth + 1, leaves =>
      node (completeRoot depth leaves) (completeRoot depth fun index => leaves (2 ^ depth + index))

/-- Each entry is the root of the complete tree over its own padded leaves. -/
theorem entry_eq_completeRoot (leaves : List α) (height index : ℕ) :
    entry node leaf leaves height index =
      completeRoot node height fun offset => leaves.getD (index * 2 ^ height + offset) leaf := by
  induction height generalizing index with
  | zero =>
      rw [entry_zero, completeRoot]
      congr 1
      ring
  | succ height ih =>
      rw [entry_succ, ih, ih, completeRoot]
      congr 2
      · funext offset
        congr 1
        ring
      · funext offset
        congr 1
        ring

/-! ## The pairs that are hashed -/

/-- Pairs combined by `nextLevel`. -/
def levelPairs (padding : α) : List α → List (α × α)
  | [] => []
  | [last] => [(last, padding)]
  | left :: right :: rest => (left, right) :: levelPairs padding rest

/-- Pairs hashed on the way up from a level, together with those of the empty
subtrees of that height. -/
def pairsAbove : (count : ℕ) → (padding : α) → List α → List (α × α)
  | 0, _, _ => []
  | count + 1, padding, nodes =>
      (padding, padding) :: levelPairs padding nodes ++
        pairsAbove count (node padding padding) (nextLevel node padding nodes)

/-- Every pair hashed while computing the root of a tree of the given depth,
together with the pairs of its empty subtrees. -/
def treePairs (depth : ℕ) (leaves : List α) : List (α × α) := pairsAbove node depth leaf leaves

/-- Every pair hashed while folding a path. -/
def climbPairs : List α → ℕ → α → List (α × α)
  | [], _, _ => []
  | sibling :: siblings, index, current =>
      let pair := if index % 2 = 0 then (current, sibling) else (sibling, current)
      pair :: climbPairs siblings (index / 2) (node pair.1 pair.2)

theorem mem_levelPairs (padding : α) (nodes : List α) (index : ℕ) :
    (nodes.getD (2 * index) padding, nodes.getD (2 * index + 1) padding) = (padding, padding) ∨
      (nodes.getD (2 * index) padding, nodes.getD (2 * index + 1) padding) ∈
        levelPairs padding nodes := by
  induction nodes using levelPairs.induct generalizing index with
  | case1 => simp
  | case2 last =>
      cases index with
      | zero => simp [levelPairs]
      | succ index => simp [Nat.mul_succ]
  | case3 left right rest ih =>
      cases index with
      | zero => simp [levelPairs]
      | succ index =>
          rcases ih index with padded | member
          · left
            simpa [Nat.mul_succ] using padded
          · right
            simpa [levelPairs, Nat.mul_succ] using Or.inr member

theorem entries_mem_pairsAbove (leaves : List α) (index : ℕ) {count offset : ℕ}
    (below : offset < count) (height : ℕ) :
    (entry node leaf leaves (height + offset) (2 * index),
        entry node leaf leaves (height + offset) (2 * index + 1)) ∈
      pairsAbove node count (emptyRoot node leaf height) (level node leaf leaves height) := by
  induction count generalizing offset height with
  | zero => exact absurd below (Nat.not_lt_zero _)
  | succ count ih =>
      rw [pairsAbove]
      cases offset with
      | zero =>
          exact List.mem_append_left _ (List.mem_cons.mpr (mem_levelPairs _ _ index))
      | succ offset =>
          have above := ih (Nat.lt_of_succ_lt_succ below) (height + 1)
          rw [Nat.add_right_comm] at above
          exact List.mem_append_right _ above

theorem entries_mem_treePairs {depth : ℕ} (height : ℕ) (below : height < depth)
    (leaves : List α) (index : ℕ) :
    (entry node leaf leaves height (2 * index), entry node leaf leaves height (2 * index + 1)) ∈
      treePairs node leaf depth leaves := by
  have member := entries_mem_pairsAbove node leaf leaves index below 0
  rwa [Nat.zero_add] at member

/-! ## Binding -/

/-- Without collisions, a path that reaches an entry of the tree started at the
entry below it that its index designates, whatever its siblings are. -/
theorem climb_binding {depth : ℕ} {leaves : List α} {pairs : Set (α × α)}
    (injective : Set.InjOn (fun pair => node pair.1 pair.2) pairs)
    (tree : ∀ pair ∈ treePairs node leaf depth leaves, pair ∈ pairs) (siblings : List α) :
    ∀ (height index target : ℕ) (current : α), height + siblings.length = depth →
      (∀ pair ∈ climbPairs node siblings index current, pair ∈ pairs) →
      climb node siblings index current = entry node leaf leaves depth target →
      current = entry node leaf leaves height
        (target * 2 ^ siblings.length + index % 2 ^ siblings.length) := by
  induction siblings with
  | nil =>
      intro height index target current depthEq _ reached
      obtain rfl : height = depth := by simpa using depthEq
      simpa [climb, Nat.mod_one] using reached
  | cons sibling siblings ih =>
      intro height index target current depthEq hashed reached
      simp only [List.length_cons] at depthEq ⊢
      simp only [climbPairs, List.forall_mem_cons] at hashed
      set parent := target * 2 ^ siblings.length + index / 2 % 2 ^ siblings.length with parentEq
      have split : index % 2 ^ (siblings.length + 1) =
          index % 2 + 2 * (index / 2 % 2 ^ siblings.length) := by
        rw [pow_succ', Nat.mod_mul]
      have expand : target * 2 ^ (siblings.length + 1) = 2 * (target * 2 ^ siblings.length) := by
        ring
      have treePair := tree _ (entries_mem_treePairs node leaf height (by omega) leaves parent)
      rcases Nat.mod_two_eq_zero_or_one index with even | odd
      · simp only [climb, even, if_true] at reached hashed
        have lifted := ih (height + 1) (index / 2) target _ (by omega) hashed.2 reached
        rw [entry_succ] at lifted
        have equal := injective hashed.1 treePair lifted
        rw [(Prod.mk.inj equal).1]
        congr 1
        omega
      · simp only [climb, odd, one_ne_zero, if_false] at reached hashed
        have lifted := ih (height + 1) (index / 2) target _ (by omega) hashed.2 reached
        rw [entry_succ] at lifted
        have equal := injective hashed.1 treePair lifted
        rw [(Prod.mk.inj equal).2]
        congr 1
        omega

/-! ## Completeness -/

/-- The siblings met when climbing from an index of a level. -/
def siblingsFrom (leaves : List α) : (height index count : ℕ) → List α
  | _, _, 0 => []
  | height, index, count + 1 =>
      entry node leaf leaves height (if index % 2 = 0 then index + 1 else index - 1) ::
        siblingsFrom leaves (height + 1) (index / 2) count

@[simp] theorem length_siblingsFrom (leaves : List α) (height index count : ℕ) :
    (siblingsFrom node leaf leaves height index count).length = count := by
  induction count generalizing height index with
  | zero => rfl
  | succ count ih => simp [siblingsFrom, ih]

/-- Each sibling is the other child of the parent of the climbed entry. -/
theorem getElem?_siblingsFrom (leaves : List α) {count depth : ℕ} (height index : ℕ)
    (inside : depth < count) :
    (siblingsFrom node leaf leaves height index count)[depth]? =
      some (entry node leaf leaves (height + depth)
        (if index / 2 ^ depth % 2 = 0 then index / 2 ^ depth + 1 else index / 2 ^ depth - 1)) := by
  induction count generalizing depth height index with
  | zero => cases inside
  | succ count ih =>
      cases depth with
      | zero => simp [siblingsFrom]
      | succ depth =>
          rw [siblingsFrom, List.getElem?_cons_succ, ih _ _ (Nat.lt_of_succ_lt_succ inside),
            Nat.div_div_eq_div_mul, ← pow_succ', Nat.add_right_comm, Nat.add_assoc]

/-- Climbing along the tree's own siblings reaches the tree's own entries. -/
theorem climb_siblingsFrom (leaves : List α) (height index count : ℕ) :
    climb node (siblingsFrom node leaf leaves height index count) index
        (entry node leaf leaves height index) =
      entry node leaf leaves (height + count) (index / 2 ^ count) := by
  induction count generalizing height index with
  | zero => simp [siblingsFrom, climb]
  | succ count ih =>
      have parent : (if index % 2 = 0 then
            node (entry node leaf leaves height index) (entry node leaf leaves height (index + 1))
          else node (entry node leaf leaves height (index - 1))
            (entry node leaf leaves height index)) =
          entry node leaf leaves (height + 1) (index / 2) := by
        rw [entry_succ]
        rcases Nat.mod_two_eq_zero_or_one index with even | odd
        · rw [if_pos even]
          congr 2 <;> omega
        · rw [if_neg (by omega)]
          congr 2 <;> omega
      have combined := ih (height + 1) (index / 2)
      rw [← parent] at combined
      simp only [siblingsFrom, climb]
      rw [show height + (count + 1) = height + 1 + count by omega,
        show index / 2 ^ (count + 1) = index / 2 / 2 ^ count by
          rw [pow_succ', Nat.div_div_eq_div_mul], ← combined]
      split <;> rfl

/-! ## Collisions among hashed pairs -/

/-- Two different listed pairs hash to the same value. -/
def Collides (pairs : List (α × α)) : Prop :=
  ∃ left ∈ pairs, ∃ right ∈ pairs, left ≠ right ∧ node left.1 left.2 = node right.1 right.2

/-- The hash is injective on the listed pairs, or two of them collide. -/
theorem injOn_or_collides (pairs : List (α × α)) :
    Set.InjOn (fun pair => node pair.1 pair.2) {pair | pair ∈ pairs} ∨ Collides node pairs := by
  by_cases collides : Collides node pairs
  · exact .inr collides
  · left
    intro left leftMem right rightMem equal
    by_contra different
    exact collides ⟨left, leftMem, right, rightMem, different, equal⟩

/-- Trees of one depth with equal entries at the top have equal entries below it. -/
theorem entry_eq_below {depth : ℕ} {left right : List α} {pairs : Set (α × α)}
    (injective : Set.InjOn (fun pair => node pair.1 pair.2) pairs)
    (leftTree : ∀ pair ∈ treePairs node leaf depth left, pair ∈ pairs)
    (rightTree : ∀ pair ∈ treePairs node leaf depth right, pair ∈ pairs)
    (top : entry node leaf left depth 0 = entry node leaf right depth 0) :
    ∀ levels ≤ depth, ∀ index < 2 ^ levels,
      entry node leaf left (depth - levels) index =
        entry node leaf right (depth - levels) index := by
  intro levels
  induction levels with
  | zero =>
      intro _ index inside
      obtain rfl : index = 0 := by simpa using inside
      simpa using top
  | succ levels ih =>
      intro below index inside
      set height := depth - (levels + 1) with heightEq
      have parentHeight : depth - levels = height + 1 := by omega
      have parents := ih (by omega) (index / 2) (by
        rw [pow_succ] at inside
        omega)
      rw [parentHeight, entry_succ, entry_succ] at parents
      have leftPair := leftTree _
        (entries_mem_treePairs node leaf height (by omega) left (index / 2))
      have rightPair := rightTree _
        (entries_mem_treePairs node leaf height (by omega) right (index / 2))
      have children := Prod.mk.inj (injective leftPair rightPair parents)
      rcases Nat.mod_two_eq_zero_or_one index with even | odd
      · rw [show 2 * (index / 2) = index by omega] at children
        exact children.1
      · rw [show 2 * (index / 2) + 1 = index by omega] at children
        exact children.2

/-! ## Leaf lists up to padding -/

/-- Entries depend on the padded leaves only. -/
theorem entry_congr {left right : List α}
    (same : ∀ index, left.getD index leaf = right.getD index leaf) (height index : ℕ) :
    entry node leaf left height index = entry node leaf right height index := by
  induction height generalizing index with
  | zero => exact same index
  | succ height ih => rw [entry_succ, entry_succ, ih, ih]

/-- Dropping whole subtrees shifts the entries. -/
theorem entry_drop (leaves : List α) (height count index : ℕ) :
    entry node leaf (leaves.drop (count * 2 ^ height)) height index =
      entry node leaf leaves height (count + index) := by
  induction height generalizing count index with
  | zero => simp [List.getD_eq_getElem?_getD]
  | succ height ih =>
      have double : count * 2 ^ (height + 1) = 2 * count * 2 ^ height := by ring
      rw [entry_succ, entry_succ, double, ih, ih]
      congr 2 <;> ring

variable [DecidableEq α]

/-- Removing trailing padding does not change the padded leaves. -/
theorem getD_rdropWhile (leaves : List α) (index : ℕ) :
    (leaves.rdropWhile fun other => decide (other = leaf)).getD index leaf =
      leaves.getD index leaf := by
  induction leaves using List.reverseRecOn with
  | nil => simp
  | append_singleton leaves last ih =>
      by_cases padding : last = leaf
      · rw [List.rdropWhile_concat_pos _ _ _ (by simpa using padding), ih, padding,
          List.getD_eq_getElem?_getD, List.getD_eq_getElem?_getD]
        rcases lt_trichotomy index leaves.length with inside | same | outside
        · rw [List.getElem?_append_left inside]
        · simp [same]
        · rw [List.getElem?_eq_none_iff.mpr outside.le,
            List.getElem?_eq_none_iff.mpr (by rw [List.length_append]; exact outside)]
      · rw [List.rdropWhile_concat_neg _ _ _ (by simpa using padding)]

/-- Leaf lists padded to the same leaves are equal without trailing padding. -/
theorem rdropWhile_eq_of_getD {left right : List α}
    (same : ∀ index, left.getD index leaf = right.getD index leaf) :
    (left.rdropWhile fun other => decide (other = leaf)) =
      right.rdropWhile fun other => decide (other = leaf) := by
  have shorter {left right : List α}
      (same : ∀ index, left.getD index leaf = right.getD index leaf) :
      (right.rdropWhile fun other => decide (other = leaf)).length ≤
        (left.rdropWhile fun other => decide (other = leaf)).length := by
    by_contra longer
    rw [Nat.not_le] at longer
    have nonempty : (right.rdropWhile fun other => decide (other = leaf)) ≠ [] := by
      intro empty
      rw [empty] at longer
      exact absurd longer (Nat.not_lt_zero _)
    have real := List.rdropWhile_last_not _ _ nonempty
    apply real
    have inRight := getD_rdropWhile leaf right
      ((right.rdropWhile fun other => decide (other = leaf)).length - 1)
    have inLeft := getD_rdropWhile leaf left
      ((right.rdropWhile fun other => decide (other = leaf)).length - 1)
    rw [same, List.getD_eq_default _ _ (by omega)] at inLeft
    rw [← inLeft, List.getD_eq_getElem _ _ (by omega),
      ← List.getLast_eq_getElem nonempty] at inRight
    exact decide_eq_true inRight
  apply List.ext_getElem (le_antisymm (shorter fun index => (same index).symm) (shorter same))
  intro index leftInside rightInside
  rw [← List.getD_eq_getElem _ leaf leftInside, ← List.getD_eq_getElem _ leaf rightInside,
    getD_rdropWhile, getD_rdropWhile, same]

end Merkle
