import ShieldedLedger.General.Merkle
import ShieldedLedger.Notes

/-!
# Append-only note commitment tree with anchors

Leaves are appended left to right and the root is recomputed level by level,
padding every odd level with the root of an empty subtree.  Sealing pushes the
current root as an anchor and evicts anchors from the front while they are
outside the validity window.
-/

namespace ShieldedLedger

structure CommitmentTree where
  leaves : List Bytes32
  /-- Sealed anchors, most recent last. -/
  anchors : List Anchor
  deriving DecidableEq

section Hashing

variable [Blake3]

def nodeHash (left right : Bytes32) : Bytes32 :=
  hashParts ds.merkleNode [left.toList, right.toList]

/-- Hash of an empty leaf, level 0 of the empty subtrees. -/
def emptyLeaf : Bytes32 := hashParts ds.merkleEmpty []

/-- Precomputed hash of the empty subtree at a level. -/
def emptyRoots (level : ℕ) : Bytes32 := Merkle.emptyRoot nodeHash emptyLeaf level

end Hashing

namespace CommitmentTree

def new : CommitmentTree := ⟨[], []⟩

def len (tree : CommitmentTree) : ℕ := tree.leaves.length

/-- Append a commitment, returning its leaf position. -/
def append (tree : CommitmentTree) (cm : Commitment) : CommitmentTree × ℕ :=
  ({ tree with leaves := tree.leaves ++ [cm.bytes] }, tree.leaves.length)

/-- Rebuild a tree from persisted raw leaves. -/
def fromRawLeaves (leaves : List Bytes32) : CommitmentTree := { new with leaves := leaves }

/-- Is this anchor sealed and still inside the validity window? -/
def anchorValid (tree : CommitmentTree) (anchor : Anchor) : Bool :=
  tree.anchors.any fun sealed => sealed == anchor

@[simp] theorem anchorValid_eq (tree : CommitmentTree) (anchor : Anchor) :
    tree.anchorValid anchor = decide (anchor ∈ tree.anchors) := by
  rw [Bool.eq_iff_iff]
  simp [anchorValid]

/-- Drop anchors from the front while they are outside the window of `height`. -/
def evict (height : ℕ) (anchors : List Anchor) : List Anchor :=
  anchors.dropWhile fun front => decide (height - front.height ≥ anchorWindow)

variable [Blake3]

/-- Root over the current leaf set (capacity `2 ^ 32`, empty slots padded). -/
def root (tree : CommitmentTree) : Bytes32 :=
  if tree.leaves.isEmpty then emptyRoots treeDepth
  else (Merkle.level nodeHash emptyLeaf tree.leaves treeDepth).headD (emptyRoots treeDepth)

/-- The sibling at one level: `idx ^ 1`, or the empty root past the level. -/
def siblingAt (tree : CommitmentTree) (position depth : ℕ) : Bytes32 :=
  (Merkle.level nodeHash emptyLeaf tree.leaves depth).getD ((position / 2 ^ depth) ^^^ 1)
    (emptyRoots depth)

/-- Authentication path for a previously appended leaf. -/
def witness (tree : CommitmentTree) (position : ℕ) : Option MerklePath :=
  if position ≥ tree.leaves.length then none
  else some ⟨position, List.Vector.ofFn fun depth => tree.siblingAt position depth⟩

/-- Seal the current root as the anchor for `height`, evicting old anchors. -/
def «seal» (tree : CommitmentTree) (height : ℕ) : CommitmentTree × Anchor :=
  let anchor : Anchor := ⟨height, tree.root⟩
  ({ tree with anchors := evict height (tree.anchors ++ [anchor]) }, anchor)

end CommitmentTree

variable [Blake3]

/-- Stateless path verification (constraint C1). -/
def verifyPath (leaf : Commitment) (path : MerklePath) (root : Bytes32) : Bool :=
  Merkle.climb nodeHash path.siblings.toList path.position leaf.bytes == root

end ShieldedLedger
