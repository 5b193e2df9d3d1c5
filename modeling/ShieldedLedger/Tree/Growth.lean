import ShieldedLedger.Reference
import ShieldedLedger.Tree.Binding
import Mathlib.Data.Nat.Bitwise

/-!
# Witnesses of a growing tree

A witness is computed from the current leaves, so it climbs to the current root.
It proves a leaf against an older anchor only when the root is still the one the
anchor was sealed with, although the anchor remains valid for the whole window.
-/

namespace ShieldedLedger

/-- What happens to a tree. -/
inductive TreeEvent where
  | append (cm : Commitment)
  | «seal» (height : ℕ)

section Growth

variable [Blake3]

namespace CommitmentTree

def apply (tree : CommitmentTree) : TreeEvent → CommitmentTree
  | .append cm => (tree.append cm).1
  | .seal height => (tree.seal height).1

/-- The tree after a sequence of events. -/
def after (tree : CommitmentTree) (events : List TreeEvent) : CommitmentTree :=
  events.foldl apply tree

theorem after_append (tree : CommitmentTree) (left right : List TreeEvent) :
    tree.after (left ++ right) = (tree.after left).after right :=
  List.foldl_append

/-- Leaves are only ever appended. -/
theorem leaves_after (tree : CommitmentTree) (events : List TreeEvent) :
    tree.leaves <+: (tree.after events).leaves := by
  induction events generalizing tree with
  | nil => exact List.prefix_refl _
  | cons event rest ih =>
      apply List.IsPrefix.trans _ (ih (tree.apply event))
      cases event with
      | append cm => exact List.prefix_append _ _
      | «seal» height => exact List.prefix_refl _

/-- Every anchor of a tree was sealed with the root of its time. -/
theorem sealed_of_mem {events : List TreeEvent} {anchor : Anchor}
    (member : anchor ∈ (new.after events).anchors) :
    ∃ before since, events = before ++ .seal anchor.height :: since ∧
      anchor.root = (new.after before).root := by
  induction events using List.reverseRecOn with
  | nil => cases member
  | append_singleton events event ih =>
      rw [after_append] at member
      cases event with
      | append cm =>
          obtain ⟨before, since, split, root⟩ := ih member
          exact ⟨before, since ++ [.append cm], by rw [split]; simp, root⟩
      | «seal» height =>
          have sealed := (List.dropWhile_suffix _).subset member
          cases List.mem_append.mp sealed with
          | inl earlier =>
              obtain ⟨before, since, split, root⟩ := ih earlier
              exact ⟨before, since ++ [.seal height], by rw [split]; simp, root⟩
          | inr last =>
              obtain rfl := List.mem_singleton.mp last
              exact ⟨events, [], rfl, rfl⟩

/-! ## What a witness verifies against -/

omit [Blake3] in
theorem sibling_index (n : ℕ) : n ^^^ 1 = if n % 2 = 0 then n + 1 else n - 1 := by
  rcases Nat.even_or_odd n with even | odd
  · rw [Nat.xor_one_of_even even, if_pos (Nat.even_iff.mp even)]
  · rw [Nat.xor_one_of_odd odd, if_neg (by rw [Nat.odd_iff.mp odd]; exact one_ne_zero)]

/-- The siblings of a witness are those met when climbing from its position. -/
theorem ofFn_siblingAt (tree : CommitmentTree) (position : ℕ) :
    (List.Vector.ofFn fun depth : Fin treeDepth => tree.siblingAt position depth).toList =
      Merkle.siblingsFrom nodeHash emptyLeaf tree.leaves 0 position treeDepth := by
  rw [List.Vector.toList_ofFn]
  apply List.ext_getElem?
  intro depth
  rcases lt_or_ge depth treeDepth with inside | outside
  · rw [Merkle.getElem?_siblingsFrom _ _ _ _ _ inside, List.getElem?_ofFn, dif_pos inside,
      ← sibling_index, Nat.zero_add]
    rfl
  · rw [List.getElem?_eq_none_iff.mpr (by simpa using outside),
      List.getElem?_eq_none_iff.mpr (by simpa using outside)]

/-- The root over the leaves from the last multiple of the capacity on. -/
def blockRoot (tree : CommitmentTree) (block : ℕ) : Bytes32 :=
  leavesRoot (tree.leaves.drop (block * 2 ^ treeDepth))

theorem blockRoot_zero (tree : CommitmentTree) : tree.blockRoot 0 = tree.root := by
  rw [blockRoot, Nat.zero_mul, List.drop_zero, root_eq_leavesRoot]

/-- A witness exists for every leaf, and verifies it against its block's current root and
no other. -/
theorem witness_verifies_iff (tree : CommitmentTree) {position : ℕ} {leaf : Bytes32}
    (found : tree.leaves[position]? = some leaf) (root : Bytes32) :
    (∃ path, tree.witness position = some path ∧ verifyPath ⟨leaf⟩ path root = true) ↔
      tree.blockRoot (position / 2 ^ treeDepth) = root := by
  obtain ⟨inside, equal⟩ := List.getElem?_eq_some_iff.mp found
  have start : leaf = Merkle.entry nodeHash emptyLeaf tree.leaves 0 position := by
    rw [Merkle.entry_zero, List.getD_eq_getElem _ _ inside, equal]
  have climbed : Merkle.climb nodeHash
      (List.Vector.ofFn fun depth : Fin treeDepth => tree.siblingAt position depth).toList
        position leaf = tree.blockRoot (position / 2 ^ treeDepth) := by
    rw [ofFn_siblingAt, start, Merkle.climb_siblingsFrom, blockRoot, leavesRoot_eq_entry,
      Merkle.entry_drop, Nat.zero_add, Nat.add_zero]
  rw [witness, if_neg (Nat.not_le.mpr inside)]
  constructor
  · rintro ⟨path, given, verified⟩
    obtain rfl := Option.some.inj given
    exact climbed.symm.trans (eq_of_beq verified)
  · intro same
    refine ⟨_, rfl, ?_⟩
    rw [verifyPath, climbed, same]
    exact beq_self_eq_true root

/-- The level-by-level root is that of the complete tree over the padded leaves, and every
leaf within the capacity has a witness that verifies against it; past the last leaf there
is none. -/
theorem root_complete (tree : CommitmentTree) (fits : tree.len ≤ 2 ^ treeDepth) :
    tree.root = Merkle.completeRoot nodeHash treeDepth (fun index =>
      tree.leaves.getD index emptyLeaf) ∧
    (∀ position, tree.len ≤ position → tree.witness position = none) ∧
    ∀ position leaf, tree.leaves[position]? = some leaf →
      ∃ path, tree.witness position = some path ∧ verifyPath ⟨leaf⟩ path tree.root = true := by
  refine ⟨?_, ?_, ?_⟩
  · rw [root_eq_leavesRoot, leavesRoot_eq_entry, Merkle.entry_eq_completeRoot]
    congr 1
    funext index
    rw [Nat.zero_mul, Nat.zero_add]
  · intro position outside
    exact if_pos outside
  · intro position leaf found
    have inside := (List.getElem?_eq_some_iff.mp found).1
    have block : position / 2 ^ treeDepth = 0 := Nat.div_eq_of_lt (inside.trans_le fits)
    apply (witness_verifies_iff tree found tree.root).mpr
    rw [block, blockRoot_zero]

/-- Every leaf of the earlier tree can be proved against a root by a current witness. -/
def Provable (tree earlier : CommitmentTree) (root : Bytes32) : Prop :=
  ∀ (position : ℕ) (leaf : Bytes32), earlier.leaves[position]? = some leaf →
    ∃ path, tree.witness position = some path ∧ verifyPath ⟨leaf⟩ path root = true

/-- The leaves of an earlier tree are provable exactly when their blocks still have the
root. -/
theorem provable_iff {tree earlier : CommitmentTree} (grown : earlier.leaves <+: tree.leaves)
    (root : Bytes32) :
    tree.Provable earlier root ↔
      ∀ block, block * 2 ^ treeDepth < earlier.len → tree.blockRoot block = root := by
  have current {position : ℕ} {leaf : Bytes32} (found : earlier.leaves[position]? = some leaf) :
      tree.leaves[position]? = some leaf := by
    obtain ⟨later, leaves⟩ := grown
    rw [← leaves, List.getElem?_append_left (List.getElem?_eq_some_iff.mp found).1, found]
  constructor
  · intro provable block inside
    have found := List.getElem?_eq_getElem inside
    have verified := provable _ _ found
    rw [witness_verifies_iff tree (current found), Nat.mul_div_cancel _ (by decide)] at verified
    exact verified
  · intro same position leaf found
    have inside := (List.getElem?_eq_some_iff.mp found).1
    rw [witness_verifies_iff tree (current found)]
    exact same _ (lt_of_le_of_lt (Nat.div_mul_le_self _ _) inside)

/-- Within the capacity there is one block. -/
theorem blocks_iff {tree earlier : CommitmentTree} (fits : earlier.len ≤ 2 ^ treeDepth)
    (root : Bytes32) :
    (∀ block, block * 2 ^ treeDepth < earlier.len → tree.blockRoot block = root) ↔
      earlier.leaves = [] ∨ tree.root = root := by
  rw [← blockRoot_zero]
  constructor
  · intro same
    rcases Nat.eq_zero_or_pos earlier.len with empty | nonempty
    · exact .inl (List.length_eq_zero_iff.mp empty)
    · exact .inr (same 0 (by rwa [Nat.zero_mul]))
  · rintro (empty | same) block inside
    · rw [len, empty] at inside
      exact absurd inside (Nat.not_lt_zero _)
    · obtain rfl : block = 0 := by
        by_contra later
        have reached := Nat.le_mul_of_pos_left (2 ^ treeDepth) (Nat.pos_of_ne_zero later)
        omega
      exact same

/-- Appending empty leaves keeps the root. -/
theorem root_of_padding {tree earlier : CommitmentTree} (grown : earlier.leaves <+: tree.leaves)
    (padding : ∀ leaf ∈ tree.leaves.drop earlier.len, leaf = emptyLeaf) :
    tree.root = earlier.root := by
  rw [root_eq_leavesRoot, root_eq_leavesRoot, leavesRoot_eq_entry, leavesRoot_eq_entry]
  apply Merkle.entry_congr
  intro index
  obtain ⟨later, leaves⟩ := grown
  rw [← leaves, len, List.drop_left] at padding
  rw [← leaves, List.getD_eq_getElem?_getD, List.getD_eq_getElem?_getD]
  rcases lt_or_ge index earlier.leaves.length with inside | outside
  · rw [List.getElem?_append_left inside]
  · rw [List.getElem?_append_right outside, List.getElem?_eq_none_iff.mpr outside]
    cases found : later[index - earlier.leaves.length]? with
    | none => rfl
    | some leaf => exact padding leaf (List.mem_of_getElem? found)

/-- A kept root shows that only empty leaves were appended, or a collision. -/
theorem padding_of_root {tree earlier : CommitmentTree} (grown : earlier.leaves <+: tree.leaves)
    (fits : tree.len ≤ 2 ^ treeDepth) (same : tree.root = earlier.root) :
    (∀ leaf ∈ tree.leaves.drop earlier.len, leaf = emptyLeaf) ∨
      Merkle.Collides nodeHash (rootPairs tree.leaves ++ rootPairs earlier.leaves) := by
  cases getD_of_leavesRoot fits (grown.length_le.trans fits) same with
  | inr collides => exact .inr collides
  | inl padded =>
      left
      intro leaf member
      obtain ⟨offset, found⟩ := List.mem_iff_getElem?.mp member
      rw [List.getElem?_drop] at found
      have beyond : earlier.leaves.getD (earlier.len + offset) emptyLeaf = emptyLeaf :=
        List.getD_eq_default _ _ (Nat.le_add_right _ _)
      have current := padded (earlier.len + offset)
      rw [beyond, List.getD_eq_getElem?_getD, found] at current
      exact current

end CommitmentTree

/-- Which old anchors stay provable.  A valid anchor was sealed with the root of its time.
The current witnesses prove all leaves of that time against it exactly when every block
of `2 ^ 32` leaves that starts before the sealed count still has its root; within the
capacity, when there was no leaf or the current root is still the anchor's.  That is so
when only empty leaves were appended since, and otherwise shows a collision. -/
theorem old_anchor_provable_iff {events : List TreeEvent} {anchor : Anchor}
    (valid : (CommitmentTree.new.after events).anchorValid anchor = true) :
    let tree := CommitmentTree.new.after events
    (∃ before since, events = before ++ .seal anchor.height :: since ∧
      anchor.root = (CommitmentTree.new.after before).root) ∧
    ∀ before since, events = before ++ .seal anchor.height :: since →
      let earlier := CommitmentTree.new.after before
      anchor.root = earlier.root →
      (tree.Provable earlier anchor.root ↔
        ∀ block, block * 2 ^ treeDepth < earlier.len → tree.blockRoot block = anchor.root) ∧
      (tree.len ≤ 2 ^ treeDepth →
        (tree.Provable earlier anchor.root ↔ earlier.leaves = [] ∨ tree.root = anchor.root) ∧
        ((∀ leaf ∈ tree.leaves.drop earlier.len, leaf = emptyLeaf) →
          tree.root = anchor.root) ∧
        (tree.root = anchor.root →
          (∀ leaf ∈ tree.leaves.drop earlier.len, leaf = emptyLeaf) ∨
            Merkle.Collides nodeHash (rootPairs tree.leaves ++ rootPairs earlier.leaves))) := by
  intro tree
  rw [CommitmentTree.anchorValid_eq, decide_eq_true_eq] at valid
  refine ⟨CommitmentTree.sealed_of_mem valid, ?_⟩
  intro before since split earlier root
  have grown : earlier.leaves <+: tree.leaves := by
    simp only [tree, earlier, split, CommitmentTree.after_append]
    exact CommitmentTree.leaves_after _ _
  have provable := CommitmentTree.provable_iff grown anchor.root
  refine ⟨provable, fun fits => ⟨?_, ?_, ?_⟩⟩
  · rw [provable]
    exact CommitmentTree.blocks_iff (grown.length_le.trans fits) anchor.root
  · intro padding
    rw [root]
    exact CommitmentTree.root_of_padding grown padding
  · intro same
    exact CommitmentTree.padding_of_root grown fits (same.trans root)

end Growth

section Samples

open Reference

/-- Three leaves. -/
def smallTree : CommitmentTree :=
  CommitmentTree.fromRawLeaves [Bytes.filled 32 1, Bytes.filled 32 2, Bytes.filled 32 3]

theorem root_complete_sample :
    smallTree.root = Merkle.completeRoot nodeHash treeDepth (fun index =>
      smallTree.leaves.getD index emptyLeaf) ∧
    ∃ path, smallTree.witness 2 = some path ∧
      verifyPath ⟨Bytes.filled 32 3⟩ path smallTree.root = true := by
  have complete := CommitmentTree.root_complete smallTree (by decide)
  exact ⟨complete.1, complete.2.2 2 (Bytes.filled 32 3) rfl⟩

/-- A leaf, its anchor, and another leaf after it. -/
def grownEvents : List TreeEvent :=
  [.append ⟨Bytes.filled 32 1⟩, .seal 1, .append ⟨Bytes.filled 32 2⟩]

def grownAnchor : Anchor := ⟨1, leavesRoot [Bytes.filled 32 1]⟩

theorem grownAnchor_root :
    grownAnchor.root = (CommitmentTree.new.after (grownEvents.take 1)).root := by
  have leaves : [Bytes.filled 32 1] = (CommitmentTree.new.after (grownEvents.take 1)).leaves := rfl
  exact congrArg leavesRoot leaves

/-- The leaf, its anchor, and a padding leaf after it. -/
def paddedEvents : List TreeEvent :=
  [.append ⟨Bytes.filled 32 1⟩, .seal 1, .append ⟨emptyLeaf⟩]

/-- The leaf is still provable after the padding. -/
theorem old_anchor_provable_sample :
    let tree := CommitmentTree.new.after paddedEvents
    tree.len = 2 ∧
      tree.Provable (CommitmentTree.new.after (paddedEvents.take 1)) grownAnchor.root := by
  intro tree
  have valid : tree.anchorValid grownAnchor = true := by decide +kernel
  have settled := (old_anchor_provable_iff valid).2 (paddedEvents.take 1) [.append ⟨emptyLeaf⟩] rfl
    grownAnchor_root
  have fits : tree.len ≤ 2 ^ treeDepth := by decide +kernel
  obtain ⟨provable, padding, -⟩ := settled.2 fits
  have padded : ∀ leaf ∈ tree.leaves.drop 1, leaf = emptyLeaf := by
    intro leaf member
    exact List.mem_singleton.mp member
  exact ⟨rfl, provable.mpr (.inr (padding padded))⟩

/-- After one more leaf the anchor is still valid, but the witness of the leaf does not
verify against it. -/
theorem old_anchor_not_provable :
    ¬∀ (_ : Blake3) (events : List TreeEvent) (anchor : Anchor) (before since : List TreeEvent),
      (CommitmentTree.new.after events).anchorValid anchor = true →
      events = before ++ .seal anchor.height :: since →
      anchor.root = (CommitmentTree.new.after before).root →
      (CommitmentTree.new.after events).Provable (CommitmentTree.new.after before)
        anchor.root := by
  intro claim
  have valid : (CommitmentTree.new.after grownEvents).anchorValid grownAnchor = true := by
    decide +kernel
  have provable := claim Reference.blake3 grownEvents grownAnchor (grownEvents.take 1)
    (grownEvents.drop 2) valid rfl grownAnchor_root
  obtain ⟨path, given, verified⟩ := provable 0 (Bytes.filled 32 1) rfl
  have refuted : ((CommitmentTree.new.after grownEvents).witness 0).all (fun path =>
      !verifyPath ⟨Bytes.filled 32 1⟩ path grownAnchor.root) = true := by decide +kernel
  rw [given, Option.all_some, verified] at refuted
  cases refuted

end Samples

end ShieldedLedger
