import ShieldedLedger.Tree.Growth

/-!
# The window of sealed anchors

Eviction drops anchors from the front only.  Because seals come at increasing
heights, the front is always the oldest, so what remains is exactly the part of
all sealed anchors that lies in the window of the last height.
-/

namespace ShieldedLedger

/-- On increasing heights, eviction keeps exactly the anchors of the window. -/
theorem evict_eq_filter {anchors : List Anchor}
    (increasing : anchors.Pairwise fun left right => left.height < right.height) (height : ℕ) :
    CommitmentTree.evict height anchors =
      anchors.filter fun anchor => decide (height - anchor.height < anchorWindow) := by
  induction anchors with
  | nil => rfl
  | cons anchor rest ih =>
      obtain ⟨below, restIncreasing⟩ := List.pairwise_cons.mp increasing
      rw [CommitmentTree.evict, List.dropWhile_cons]
      split
      · rename_i old
        rw [List.filter_cons_of_neg (by simpa using old)]
        exact ih restIncreasing
      · rename_i recent
        have keeps (other : Anchor) (member : other ∈ anchor :: rest) :
            decide (height - other.height < anchorWindow) = true := by
          have headRecent : height - anchor.height < anchorWindow := by simpa using recent
          rcases List.mem_cons.mp member with rfl | later
          · exact decide_eq_true headRecent
          · have := below other later
            exact decide_eq_true (by omega)
        exact (List.filter_eq_self.mpr keeps).symm

/-- Strictly increasing heights in a window are no more than the window is long. -/
theorem length_le_of_increasing (last : ℕ) {anchors : List Anchor}
    (increasing : anchors.Pairwise fun left right => left.height < right.height)
    (atMost : ∀ anchor ∈ anchors, anchor.height ≤ last)
    (recent : ∀ anchor ∈ anchors, last - anchor.height < anchorWindow) :
    anchors.length ≤ anchorWindow := by
  have distinct : (anchors.map fun anchor => last - anchor.height).Nodup := by
    rw [List.Nodup, List.pairwise_map]
    apply increasing.imp_of_mem
    intro left right leftMem rightMem below
    have := atMost left leftMem
    have := atMost right rightMem
    omega
  have inside : (anchors.map fun anchor => last - anchor.height) ⊆ List.range anchorWindow := by
    intro age member
    obtain ⟨anchor, anchorMem, rfl⟩ := List.mem_map.mp member
    exact List.mem_range.mpr (recent anchor anchorMem)
  have shorter := (List.subperm_of_subset distinct inside).length_le
  rw [List.length_map, List.length_range] at shorter
  exact shorter

/-- Heights of the seals, in order. -/
def sealHeights (events : List TreeEvent) : List ℕ :=
  events.filterMap fun
    | .append _ => none
    | .seal height => some height

namespace CommitmentTree

/-- The deque holds the sealed anchors that are in the window of the last one. -/
structure Windowed (tree : CommitmentTree) (sealed : List Anchor) : Prop where
  increasing : sealed.Pairwise fun left right => left.height < right.height
  kept : tree.anchors = sealed.filter fun anchor =>
    decide ((sealed.map Anchor.height).getLastD 0 - anchor.height < anchorWindow)

theorem Windowed.height_le {tree : CommitmentTree} {sealed : List Anchor}
    (windowed : tree.Windowed sealed) {anchor : Anchor} (member : anchor ∈ sealed) :
    anchor.height ≤ (sealed.map Anchor.height).getLastD 0 := by
  have increasing := windowed.increasing
  induction sealed using List.reverseRecOn with
  | nil => cases member
  | append_singleton earlier last _ =>
      have top : ((earlier ++ [last]).map Anchor.height).getLastD 0 = last.height := by
        rw [List.map_append, List.map_singleton, List.getLastD_concat]
      rw [top]
      cases List.mem_append.mp member with
      | inl older =>
          exact ((List.pairwise_append.mp increasing).2.2 anchor older last
            (List.mem_singleton_self last)).le
      | inr same => rw [List.mem_singleton.mp same]

variable [Blake3]

/-- The anchors that the seals return, in order. -/
def sealed (tree : CommitmentTree) : List TreeEvent → List Anchor
  | [] => []
  | .append cm :: events => sealed (tree.append cm).1 events
  | .seal height :: events => (tree.seal height).2 :: sealed (tree.seal height).1 events

theorem sealed_append (tree : CommitmentTree) (left right : List TreeEvent) :
    tree.sealed (left ++ right) = tree.sealed left ++ (tree.after left).sealed right := by
  induction left generalizing tree with
  | nil => rfl
  | cons event events ih =>
      cases event with
      | append cm => exact ih _
      | «seal» height => exact congrArg (_ :: ·) (ih _)

/-- Every seal returns an anchor of its height. -/
theorem map_height_sealed (tree : CommitmentTree) (events : List TreeEvent) :
    (tree.sealed events).map Anchor.height = sealHeights events := by
  induction events generalizing tree with
  | nil => rfl
  | cons event events ih =>
      cases event with
      | append cm => exact ih _
      | «seal» height => exact congrArg (_ :: ·) (ih _)

/-- A seal above all earlier heights keeps the window. -/
theorem windowed_seal {tree : CommitmentTree} {sealed : List Anchor}
    (windowed : tree.Windowed sealed) {height : ℕ}
    (above : ∀ anchor ∈ sealed, anchor.height < height) :
    (tree.seal height).1.Windowed (sealed ++ [(tree.seal height).2]) := by
  have increasing : (sealed ++ [(tree.seal height).2]).Pairwise
      fun left right => left.height < right.height := by
    refine List.pairwise_append.mpr ⟨windowed.increasing, List.pairwise_singleton _ _, ?_⟩
    intro anchor member last equal
    rw [List.mem_singleton.mp equal]
    exact above anchor member
  have top : ((sealed ++ [(tree.seal height).2]).map Anchor.height).getLastD 0 = height := by
    rw [List.map_append, List.map_singleton, List.getLastD_concat]
    rfl
  have stored : (tree.anchors ++ [(tree.seal height).2]).Pairwise
      fun left right => left.height < right.height := by
    rw [windowed.kept]
    exact increasing.sublist ((List.filter_sublist).append_right _)
  refine ⟨increasing, ?_⟩
  have evicted : (tree.seal height).1.anchors =
      evict height (tree.anchors ++ [(tree.seal height).2]) := rfl
  rw [evicted, evict_eq_filter stored, top, windowed.kept, List.filter_append, List.filter_append,
    List.filter_filter]
  congr 1
  -- the window of the new height lies in that of the old one
  apply List.filter_congr
  intro anchor member
  have below := above anchor member
  have atMost := windowed.height_le member
  have lastLe : (sealed.map Anchor.height).getLastD 0 ≤ height := by
    cases last : sealed.getLast? with
    | none =>
        rw [List.getLast?_eq_none_iff.mp last]
        exact Nat.zero_le _
    | some newest =>
        have newestMem := List.mem_of_getLast? last
        rw [List.getLastD_eq_getLast?, List.getLast?_map, last]
        exact (above newest newestMem).le
  rw [← Bool.decide_and]
  apply decide_eq_decide.mpr
  constructor
  · intro both
    exact both.1
  · intro recent
    refine ⟨recent, ?_⟩
    omega

/-- Along increasing seals the deque of a fresh tree is windowed. -/
theorem windowed_after (leaves : List Bytes32) {events : List TreeEvent}
    (increasing : (sealHeights events).Pairwise (· < ·)) :
    ((fromRawLeaves leaves).after events).Windowed ((fromRawLeaves leaves).sealed events) := by
  induction events using List.reverseRecOn with
  | nil => exact ⟨List.Pairwise.nil, rfl⟩
  | append_singleton events event ih =>
      rw [sealHeights, List.filterMap_append] at increasing
      have split := List.pairwise_append.mp increasing
      have windowed := ih split.1
      rw [after_append, sealed_append]
      cases event with
      | append cm =>
          rw [show ((fromRawLeaves leaves).after events).sealed [.append cm] = [] from rfl,
            List.append_nil]
          exact ⟨windowed.increasing, windowed.kept⟩
      | «seal» height =>
          apply windowed_seal windowed
          intro anchor member
          apply split.2.2 anchor.height _ height (List.mem_singleton_self height)
          have mapped := List.mem_map_of_mem (f := Anchor.height) member
          rw [map_height_sealed] at mapped
          exact mapped

/-- The anchors that stay valid.  Along seals at increasing heights, with any appends in
between, the valid anchors are exactly those returned by a seal less than the window below
the last height; the deque is strictly increasing and no longer than the window. -/
theorem anchorValid_after_iff (leaves : List Bytes32) (events : List TreeEvent)
    (increasing : (sealHeights events).Pairwise (· < ·)) :
    let start := fromRawLeaves leaves
    let tree := start.after events
    (∀ anchor, tree.anchorValid anchor = true ↔
      anchor ∈ start.sealed events ∧
        (sealHeights events).getLastD 0 - anchor.height < anchorWindow) ∧
    (tree.anchors.Pairwise fun left right => left.height < right.height) ∧
    tree.anchors.length ≤ anchorWindow := by
  intro start tree
  have windowed : tree.Windowed (start.sealed events) := windowed_after leaves increasing
  have kept := windowed.kept
  rw [map_height_sealed] at kept
  have ordered : tree.anchors.Pairwise fun left right => left.height < right.height := by
    rw [kept]
    exact windowed.increasing.sublist List.filter_sublist
  refine ⟨?_, ordered, ?_⟩
  · intro anchor
    rw [anchorValid_eq, decide_eq_true_eq, kept, List.mem_filter, decide_eq_true_eq]
  · apply length_le_of_increasing ((sealHeights events).getLastD 0) ordered
    · intro anchor member
      rw [kept] at member
      have atMost := windowed.height_le (List.mem_of_mem_filter member)
      rw [map_height_sealed] at atMost
      exact atMost
    · intro anchor member
      rw [kept] at member
      exact of_decide_eq_true (List.mem_filter.mp member).2

end CommitmentTree

section Samples

open Reference

/-- Two seals exactly one window apart, with a leaf in between. -/
def gapEvents : List TreeEvent :=
  [.seal 7, .append ⟨Bytes.filled 32 1⟩, .seal (7 + anchorWindow)]

/-- The first of the two anchors has left the window. -/
theorem anchorValid_after_gap :
    let start := CommitmentTree.fromRawLeaves []
    (start.after gapEvents).anchorValid (start.seal 7).2 = false ∧
      (start.after gapEvents).anchors.length ≤ anchorWindow := by
  intro start
  have window := CommitmentTree.anchorValid_after_iff [] gapEvents (by decide)
  refine ⟨?_, window.2.2⟩
  rw [Bool.eq_false_iff]
  intro valid
  have recent := ((window.1 _).mp valid).2
  exact absurd recent (by decide)

end Samples

end ShieldedLedger
