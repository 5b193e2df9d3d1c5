import ShieldedLedger.Reference
import ShieldedLedger.Tree

/-!
# Binding of verified paths

A path that verifies against the root of a leaf list designates a leaf of that
list, unless the hash collides among the pairs hashed for the root and along
the path.  The padding hash has a context of its own, so no note commitment
passes for an empty leaf.
-/

namespace ShieldedLedger

/-- The query behind an inner node. -/
def nodeQuery : Bytes32 × Bytes32 → Query
  | (left, right) => partsQuery ds.merkleNode [left.toList, right.toList]

/-- The query behind the empty leaf. -/
def emptyLeafQuery : Query := partsQuery ds.merkleEmpty []

section Binding

variable [Blake3]

/-- Queries made to compute the root of a leaf list. -/
def treeQueries (leaves : List Bytes32) : List Query :=
  emptyLeafQuery :: (Merkle.treePairs nodeHash emptyLeaf treeDepth leaves).map nodeQuery

/-- Queries made to verify a path. -/
def pathQueries (leaf : Commitment) (path : MerklePath) : List Query :=
  (Merkle.climbPairs nodeHash path.siblings.toList path.position leaf.bytes).map nodeQuery

/-- The root of a leaf list, whatever anchors are sealed. -/
def leavesRoot (leaves : List Bytes32) : Bytes32 := CommitmentTree.root ⟨leaves, []⟩

theorem CommitmentTree.root_eq_leavesRoot (tree : CommitmentTree) :
    tree.root = leavesRoot tree.leaves := rfl

/-- The root is the topmost entry of the padded tree. -/
theorem leavesRoot_eq_entry (leaves : List Bytes32) :
    leavesRoot leaves = Merkle.entry nodeHash emptyLeaf leaves treeDepth 0 := by
  cases leaves with
  | nil => simp [leavesRoot, CommitmentTree.root, Merkle.entry, emptyRoots]
  | cons leaf rest =>
      simp only [leavesRoot, CommitmentTree.root, List.isEmpty_cons, Bool.false_eq_true, if_false,
        Merkle.entry, emptyRoots]
      generalize Merkle.level nodeHash emptyLeaf (leaf :: rest) treeDepth = nodes
      cases nodes <;> rfl

/-- Without collisions the node hash separates the queried pairs. -/
theorem nodeHash_injOn {queries : Set Query} (free : CollisionFree queries) :
    Set.InjOn (fun pair : Bytes32 × Bytes32 => nodeHash pair.1 pair.2)
      {pair | nodeQuery pair ∈ queries} := by
  have fits (left right : Bytes32) : Bytes.Framable [left.toList, right.toList] := by simp
  rintro ⟨left, right⟩ leftMem ⟨left', right'⟩ rightMem equal
  have parts := free.parts_eq leftMem rightMem (fits _ _) (fits _ _) equal
  simp only [List.cons.injEq, and_true] at parts
  rw [List.Vector.eq left left' parts.1, List.Vector.eq right right' parts.2]

/-! ## Binding, or a collision of the node hash -/

/-- Pairs hashed to compute the root of a leaf list. -/
def rootPairs (leaves : List Bytes32) : List (Bytes32 × Bytes32) :=
  Merkle.treePairs nodeHash emptyLeaf treeDepth leaves

/-- Pairs hashed to verify a path. -/
def pathPairs (leaf : Commitment) (path : MerklePath) : List (Bytes32 × Bytes32) :=
  Merkle.climbPairs nodeHash path.siblings.toList path.position leaf.bytes

/-- A verified path starts at the designated leaf, or at padding, or a collision shows. -/
theorem getD_of_verifyPath {leaves : List Bytes32} {leaf : Commitment} {path : MerklePath}
    (verified : verifyPath leaf path (leavesRoot leaves) = true) :
    leaf.bytes = leaves.getD (path.position % 2 ^ treeDepth) emptyLeaf ∨
      Merkle.Collides nodeHash (rootPairs leaves ++ pathPairs leaf path) := by
  have reached : Merkle.climb nodeHash path.siblings.toList path.position leaf.bytes =
      Merkle.entry nodeHash emptyLeaf leaves treeDepth 0 := by
    rw [← leavesRoot_eq_entry]
    exact eq_of_beq verified
  cases Merkle.injOn_or_collides nodeHash (rootPairs leaves ++ pathPairs leaf path) with
  | inr collides => exact .inr collides
  | inl injective =>
      left
      have start := Merkle.climb_binding nodeHash emptyLeaf injective
        (fun pair member => List.mem_append_left _ member) path.siblings.toList 0 path.position 0
        leaf.bytes (by simp) (fun pair member => List.mem_append_right _ member) reached
      simpa using start

/-- Equal roots come from the same padded leaves within the capacity, or a collision
shows. -/
theorem getD_of_leavesRoot {left right : List Bytes32}
    (leftFits : left.length ≤ 2 ^ treeDepth) (rightFits : right.length ≤ 2 ^ treeDepth)
    (equal : leavesRoot left = leavesRoot right) :
    (∀ index, left.getD index emptyLeaf = right.getD index emptyLeaf) ∨
      Merkle.Collides nodeHash (rootPairs left ++ rootPairs right) := by
  rw [leavesRoot_eq_entry, leavesRoot_eq_entry] at equal
  cases Merkle.injOn_or_collides nodeHash (rootPairs left ++ rootPairs right) with
  | inr collides => exact .inr collides
  | inl injective =>
      left
      intro index
      rcases lt_or_ge index (2 ^ treeDepth) with inside | outside
      · have below := Merkle.entry_eq_below nodeHash emptyLeaf injective
          (fun pair member => List.mem_append_left _ member)
          (fun pair member => List.mem_append_right _ member) equal treeDepth le_rfl index inside
        simpa using below
      · rw [List.getD_eq_default _ _ (leftFits.trans outside),
          List.getD_eq_default _ _ (rightFits.trans outside)]

/-- Pairs whose queries do not collide do not collide. -/
theorem not_collides {queries : Set Query} (free : CollisionFree queries)
    {pairs : List (Bytes32 × Bytes32)} (hashed : ∀ pair ∈ pairs, nodeQuery pair ∈ queries) :
    ¬Merkle.Collides nodeHash pairs := by
  rintro ⟨left, leftMem, right, rightMem, different, equal⟩
  exact different (nodeHash_injOn free (hashed left leftMem) (hashed right rightMem) equal)

/-- A verified path starts at the leaf its position designates, or at padding. -/
theorem verifyPath_binding {queries : Set Query} (free : CollisionFree queries)
    {leaves : List Bytes32} (tree : ∀ query ∈ treeQueries leaves, query ∈ queries)
    {leaf : Commitment} {path : MerklePath}
    (hashed : ∀ query ∈ pathQueries leaf path, query ∈ queries)
    (verified : verifyPath leaf path (leavesRoot leaves) = true) :
    leaf.bytes = leaves.getD (path.position % 2 ^ treeDepth) emptyLeaf := by
  cases getD_of_verifyPath verified with
  | inl start => exact start
  | inr collides =>
      apply absurd collides
      apply not_collides free
      intro pair member
      cases List.mem_append.mp member with
      | inl inTree => exact tree _ (List.mem_cons_of_mem _ (List.mem_map_of_mem inTree))
      | inr onPath => exact hashed _ (List.mem_map_of_mem onPath)

/-- A note whose path verifies is committed at the designated position. -/
theorem committed_of_verifyPath {queries : Set Query} (free : CollisionFree queries)
    {leaves : List Bytes32} (tree : ∀ query ∈ treeQueries leaves, query ∈ queries)
    {note : Note} (noteMem : note.commitmentQuery ∈ queries) {path : MerklePath}
    (hashed : ∀ query ∈ pathQueries note.commitment path, query ∈ queries)
    (verified : verifyPath note.commitment path (leavesRoot leaves) = true) :
    leaves[path.position % 2 ^ treeDepth]? = some note.commitment.bytes := by
  have start := verifyPath_binding free tree hashed verified
  rw [List.getD_eq_getElem?_getD] at start
  cases found : leaves[path.position % 2 ^ treeDepth]? with
  | some leaf =>
      rw [found] at start
      exact congrArg some start.symm
  | none =>
      rw [found] at start
      have emptyMem : emptyLeafQuery ∈ queries := tree _ (List.mem_cons_self ..)
      have contexts : ds.noteCommitment ≠ ds.merkleEmpty := by decide
      exact absurd start (free.ne_of_context noteMem emptyMem contexts)

/-- Merkle tree binding.  A commitment other than the empty leaf that verifies along any
path is the leaf at the path's position modulo the capacity; and leaf lists within the
capacity with equal roots are equal up to trailing empty leaves.  Otherwise two
different inputs of the node hash with equal outputs are among the pairs hashed. -/
theorem merkle_binding :
    (∀ (tree : CommitmentTree) (cm : Commitment) (path : MerklePath),
      cm.bytes ≠ emptyLeaf → verifyPath cm path tree.root = true →
      tree.leaves[path.position % 2 ^ treeDepth]? = some cm.bytes ∨
        Merkle.Collides nodeHash (rootPairs tree.leaves ++ pathPairs cm path)) ∧
    (∀ left right : CommitmentTree, left.leaves.length ≤ 2 ^ treeDepth →
      right.leaves.length ≤ 2 ^ treeDepth → left.root = right.root →
      (left.leaves.rdropWhile fun leaf => decide (leaf = emptyLeaf)) =
        (right.leaves.rdropWhile fun leaf => decide (leaf = emptyLeaf)) ∨
        Merkle.Collides nodeHash (rootPairs left.leaves ++ rootPairs right.leaves)) := by
  constructor
  · intro tree cm path real verified
    cases getD_of_verifyPath verified with
    | inr collides => exact .inr collides
    | inl start =>
        left
        rw [List.getD_eq_getElem?_getD] at start
        cases found : tree.leaves[path.position % 2 ^ treeDepth]? with
        | none =>
            rw [found] at start
            exact absurd start real
        | some leaf =>
            rw [found] at start
            exact congrArg some start.symm
  · intro left right leftFits rightFits equal
    cases getD_of_leavesRoot leftFits rightFits equal with
    | inr collides => exact .inr collides
    | inl same => exact .inl (Merkle.rdropWhile_eq_of_getD emptyLeaf same)

end Binding

section Samples

open Reference

/-- Two leaves. -/
def pairTree : CommitmentTree :=
  CommitmentTree.fromRawLeaves [Bytes.filled 32 1, Bytes.filled 32 2]

/-- The path of the second leaf. -/
def pairPath : MerklePath :=
  (pairTree.witness 1).getD ⟨0, List.Vector.replicate treeDepth (Bytes.filled 32 0)⟩

theorem pairPath_verified : verifyPath ⟨Bytes.filled 32 2⟩ pairPath pairTree.root = true := by
  decide +kernel

theorem pairTree_distinct :
    ((rootPairs pairTree.leaves).map fun pair => nodeHash pair.1 pair.2).Nodup := by
  decide +kernel

/-- Verifying the path hashes the second of each two pairs that the root is made from. -/
theorem pairPath_pairs :
    (pathPairs ⟨Bytes.filled 32 2⟩ pairPath).length = 32 ∧
      ∀ level < 32, (pathPairs ⟨Bytes.filled 32 2⟩ pairPath)[level]? =
        (rootPairs pairTree.leaves)[2 * level + 1]? := by
  decide +kernel

/-- The path verifies, nothing that is hashed collides, and so the leaf is at its position. -/
theorem merkle_binding_sample :
    pairTree.leaves[pairPath.position % 2 ^ treeDepth]? = some (Bytes.filled 32 2) := by
  have real : Bytes.filled 32 2 ≠ emptyLeaf := by decide +kernel
  have among (pair : Bytes32 × Bytes32)
      (member : pair ∈ rootPairs pairTree.leaves ++ pathPairs ⟨Bytes.filled 32 2⟩ pairPath) :
      pair ∈ rootPairs pairTree.leaves := by
    rcases List.mem_append.mp member with hashed | climbed
    · exact hashed
    · obtain ⟨level, found⟩ := List.mem_iff_getElem?.mp climbed
      have inside := (List.getElem?_eq_some_iff.mp found).1
      rw [pairPath_pairs.1] at inside
      exact List.mem_of_getElem? ((pairPath_pairs.2 level inside).symm.trans found)
  refine (merkle_binding.1 pairTree _ pairPath real pairPath_verified).resolve_right ?_
  rintro ⟨left, leftMem, right, rightMem, different, same⟩
  exact different (List.inj_on_of_nodup_map pairTree_distinct (among left leftMem)
    (among right rightMem) same)

end Samples

end ShieldedLedger
