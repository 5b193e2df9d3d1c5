import ShieldedLedger.General.Blocks
import ShieldedLedger.General.Bytes

/-!
# Two runs of items behind one-byte counts

A run is written as its number of items, cut to one byte, and the items.  Two runs
in a row can be read in another way exactly when a multiple of 256 items can change
sides: the counts do not show it, and the count byte between the runs has to stand
in one of the items that move.
-/

namespace Counted

variable {size : ℕ}

/-- The layout of a run. -/
def run (items : List (Bytes.Array size)) : List UInt8 := items.flatMap List.Vector.toList

/-- The number of items, cut to one byte. -/
def count (items : List (Bytes.Array size)) : UInt8 := UInt8.ofNat items.length

/-- A run behind its count. -/
def counted (items : List (Bytes.Array size)) : List UInt8 := count items :: run items

/-- Two runs in a row. -/
def pair (left right : List (Bytes.Array size)) : List UInt8 := counted left ++ counted right

@[simp] theorem run_append (left right : List (Bytes.Array size)) :
    run (left ++ right) = run left ++ run right :=
  List.flatMap_append

@[simp] theorem length_run (items : List (Bytes.Array size)) :
    (run items).length = size * items.length :=
  Blocks.length_flatMap id items

theorem run_inj {left right : List (Bytes.Array size)} (lengths : left.length = right.length)
    (equal : run left = run right) : left = right :=
  Blocks.flatMap_inj lengths equal

@[simp] theorem length_pair (left right : List (Bytes.Array size)) :
    (pair left right).length = size * (left.length + right.length) + 2 := by
  simp [pair, counted, Nat.mul_add]
  omega

/-- Runs that read alike have as many items together. -/
theorem length_add_of_pair_eq {left right left' right' : List (Bytes.Array (size + 1))}
    (equal : pair left right = pair left' right') :
    left.length + right.length = left'.length + right'.length := by
  have lengths := congrArg List.length equal
  rw [length_pair, length_pair] at lengths
  exact Nat.eq_of_mul_eq_mul_left size.succ_pos (Nat.add_right_cancel lengths)

theorem count_eq_iff {left right : List (Bytes.Array size)} :
    count left = count right ↔ left.length % 256 = right.length % 256 := by
  rw [count, count, ← UInt8.toNat_inj, UInt8.toNat_ofNat', UInt8.toNat_ofNat']

/-- A multiple of 256 items does not show in the count. -/
theorem count_append {moved items : List (Bytes.Array size)} {wraps : ℕ}
    (full : moved.length = 256 * wraps) : count (moved ++ items) = count items := by
  rw [count_eq_iff, List.length_append, full, Nat.mul_add_mod]

/-- The count in front of the right run is hidden in items that leave it for the left one. -/
structure Moved (wraps : ℕ) (right moved rest : List (Bytes.Array size)) : Prop where
  full : moved.length = 256 * wraps
  length : right.length = 256 * wraps + rest.length
  bytes : counted right = run moved ++ counted rest

namespace Moved

variable {wraps : ℕ} {left right moved rest : List (Bytes.Array size)}

theorem count_eq (move : Moved wraps right moved rest) : count right = count rest := by
  rw [count_eq_iff, move.length, Nat.mul_add_mod]

/-- The two readings of the bytes. -/
theorem pair_eq (move : Moved wraps right moved rest) (left : List (Bytes.Array size)) :
    pair (left ++ moved) rest = pair left right := by
  have counts : count (left ++ moved) = count left := by
    rw [count_eq_iff, List.length_append, move.full, Nat.add_mul_mod_self_left]
  rw [pair, pair, move.bytes]
  simp only [counted, counts, run_append, List.cons_append, List.append_assoc]

end Moved

/-- Runs that read alike, the first of them longer on one side, differ by a move. -/
theorem exists_moved_of_lt {left right longer rest : List (Bytes.Array (size + 1))}
    (equal : pair left right = pair longer rest) (lt : left.length < longer.length) :
    ∃ wraps moved, 0 < wraps ∧ longer = left ++ moved ∧ Moved wraps right moved rest := by
  have bytes := List.cons.inj equal
  have counts : left.length % 256 = longer.length % 256 := count_eq_iff.mp bytes.1
  have total := length_add_of_pair_eq equal
  obtain ⟨wraps, more⟩ : ∃ wraps, longer.length = left.length + 256 * wraps :=
    ⟨(longer.length - left.length) / 256, by omega⟩
  -- The longer run starts with as many items as the shorter one has.
  have split : run left ++ counted right =
      run (longer.take left.length) ++ (run (longer.drop left.length) ++ counted rest) := by
    rw [← List.append_assoc, ← run_append, List.take_append_drop]
    exact bytes.2
  have front : left.length = (longer.take left.length).length := by
    rw [List.length_take]
    omega
  have parts := List.append_inj split (by rw [length_run, length_run, ← front])
  refine ⟨wraps, longer.drop left.length, by omega, ?_, ?_⟩
  · conv_lhs => rw [← List.take_append_drop left.length longer, ← run_inj front parts.1]
  · refine { full := ?_, length := by omega, bytes := parts.2 }
    rw [List.length_drop]
    omega

/-! ## The byte that hides the count -/

section Hidden

variable {wraps : ℕ} {right moved rest : List (Bytes.Array (size + 1))}

theorem getElem?_run (items : List (Bytes.Array (size + 1))) (j : Fin (size + 1)) {i : ℕ}
    {item : Bytes.Array (size + 1)} (found : items[i]? = some item) :
    (run items)[(size + 1) * i + j]? = some (item.get j) :=
  Blocks.getElem?_flatMap id j found

/-- The byte before a boundary between items, counted from the count on. -/
theorem getElem?_counted (items : List (Bytes.Array (size + 1))) {i : ℕ} (positive : 0 < i)
    {item : Bytes.Array (size + 1)} (found : items[i - 1]? = some item) :
    (counted items)[(size + 1) * i]? = some item.last := by
  have place : (size + 1) * i = (size + 1) * (i - 1) + (Fin.last size).val + 1 := by
    obtain ⟨i, rfl⟩ := Nat.exists_eq_succ_of_ne_zero positive.ne'
    rw [Nat.succ_sub_one, Nat.mul_succ, Fin.val_last]
    rfl
  rw [place, counted, List.getElem?_cons_succ]
  exact getElem?_run items (Fin.last size) found

/-- The last of the items that leave the right run ends in its count. -/
theorem Moved.last_eq (move : Moved wraps right moved rest) (positive : 0 < wraps) :
    ∃ item, right[256 * wraps - 1]? = some item ∧ item.last = count right := by
  have inside : 256 * wraps - 1 < right.length := by
    have := move.length
    omega
  obtain ⟨item, found⟩ : ∃ item, right[256 * wraps - 1]? = some item :=
    ⟨_, List.getElem?_eq_getElem inside⟩
  refine ⟨item, found, ?_⟩
  have byte := getElem?_counted right (by omega) found
  rw [move.bytes, ← move.full, ← length_run, List.getElem?_append_right le_rfl, Nat.sub_self,
    counted, List.getElem?_cons_zero, ← move.count_eq] at byte
  exact (Option.some.inj byte).symm

/-- The first of the items that join the left run begins with the count of the right one. -/
theorem Moved.head_eq (move : Moved wraps right moved rest) (positive : 0 < wraps) :
    ∃ item, moved[0]? = some item ∧ item.head = count right := by
  have inside : 0 < moved.length := by
    have := move.full
    omega
  obtain ⟨item, found⟩ : ∃ item, moved[0]? = some item :=
    ⟨_, List.getElem?_eq_getElem inside⟩
  refine ⟨item, found, ?_⟩
  have byte := getElem?_run moved 0 found
  have start : (counted right)[0]? = (run moved)[0]? := by
    rw [move.bytes, List.getElem?_append_left]
    rw [length_run]
    exact Nat.mul_pos size.succ_pos inside
  rw [Nat.mul_zero, Fin.val_zero, Nat.zero_add, ← start, counted, List.getElem?_cons_zero] at byte
  rw [← List.Vector.get_zero]
  exact (Option.some.inj byte).symm

/-- Items whose last one ends in the count can leave the right run. -/
theorem exists_moved_of_last (positive : 0 < wraps) {item : Bytes.Array (size + 1)}
    (found : right[256 * wraps - 1]? = some item) (hidden : item.last = count right) :
    ∃ moved rest, Moved wraps right moved rest := by
  have inside : 256 * wraps ≤ right.length := by
    have := (List.getElem?_eq_some_iff.mp found).1
    omega
  have length : right.length = 256 * wraps + (right.drop (256 * wraps)).length := by
    rw [List.length_drop]
    omega
  have laidOut : run right =
      run (right.take (256 * wraps)) ++ run (right.drop (256 * wraps)) := by
    rw [← run_append, List.take_append_drop]
  have placed : (run (right.take (256 * wraps))).length = (size + 1) * (256 * wraps) := by
    rw [length_run, List.length_take_of_le inside]
  obtain ⟨moved, full, elements⟩ := Blocks.exists_blocks (256 * wraps)
    ((counted right).take ((size + 1) * (256 * wraps))) (by
      rw [List.length_take_of_le]
      rw [counted, List.length_cons, laidOut, List.length_append, placed]
      omega)
  refine ⟨moved, right.drop (256 * wraps), { full, length, bytes := ?_ }⟩
  -- Behind the items that move, the byte that ends them is read as the count.
  have byte := getElem?_counted right (by omega) found
  have counts : count right = count (right.drop (256 * wraps)) := by
    rw [count_eq_iff, length, Nat.mul_add_mod]
  have behind : (counted right).drop ((size + 1) * (256 * wraps)) =
      counted (right.drop (256 * wraps)) := by
    obtain ⟨bound, shown⟩ := List.getElem?_eq_some_iff.mp byte
    rw [List.drop_eq_getElem_cons bound, shown, hidden, counts, counted, counted,
      List.drop_succ_cons, laidOut, List.drop_left' placed]
  rw [← behind, run, elements, List.take_append_drop]

/-- Items whose first one begins with the count of the right run can join it. -/
theorem exists_moved_of_head {left : List (Bytes.Array (size + 1))} (positive : 0 < wraps)
    (enough : 256 * wraps ≤ left.length) {item : Bytes.Array (size + 1)}
    (found : left[left.length - 256 * wraps]? = some item) (hidden : item.head = count right) :
    ∃ kept moved joined, left = kept ++ moved ∧ Moved wraps joined moved right := by
  obtain ⟨kept, moved, rfl, full⟩ :
      ∃ kept moved, left = kept ++ moved ∧ moved.length = 256 * wraps := by
    refine ⟨_, _, (List.take_append_drop (left.length - 256 * wraps) left).symm, ?_⟩
    rw [List.length_drop]
    omega
  rw [List.length_append, full, Nat.add_sub_cancel, List.getElem?_append_right le_rfl,
    Nat.sub_self] at found
  have opened := getElem?_run moved 0 found
  rw [Nat.mul_zero, Fin.val_zero, List.Vector.get_zero, hidden] at opened
  have bytes := length_run moved
  -- The items that join are the bytes behind the first one, and the old count.
  cases laidOut : run moved with
  | nil =>
      rw [laidOut] at opened
      cases opened
  | cons first others =>
      rw [laidOut] at opened bytes
      obtain rfl : first = count right := Option.some.inj opened
      rw [full, List.length_cons] at bytes
      obtain ⟨items, itemsLength, elements⟩ := Blocks.exists_blocks (256 * wraps)
        (others ++ [count right]) (by rw [List.length_append]; exact bytes)
      refine ⟨kept, moved, items ++ right, rfl,
        { full, length := by rw [List.length_append, itemsLength], bytes := ?_ }⟩
      rw [counted, count_append itemsLength, run_append, run, elements, laidOut]
      simp [counted]

end Hidden

/-! ## When another reading exists -/

/-- Some multiple of 256 items can change sides. -/
def Movable (left right : List (Bytes.Array (size + 1))) : Prop :=
  ∃ wraps, 0 < wraps ∧
    ((∃ item, right[256 * wraps - 1]? = some item ∧ item.last = count right) ∨
      256 * wraps ≤ left.length ∧
        ∃ item, left[left.length - 256 * wraps]? = some item ∧ item.head = count right)

/-- Runs of fewer than 256 items leave nothing to move. -/
theorem not_movable_of_lt {left right : List (Bytes.Array (size + 1))}
    (leftShort : left.length < 256) (rightShort : right.length < 256) : ¬Movable left right := by
  rintro ⟨wraps, positive, ⟨item, found, -⟩ | ⟨enough, -⟩⟩
  · have := (List.getElem?_eq_some_iff.mp found).1
    omega
  · omega

/-- Two runs read alike in another way exactly when items can change sides. -/
theorem exists_other_iff (left right : List (Bytes.Array (size + 1))) :
    (∃ left' right', (left', right') ≠ (left, right) ∧ pair left' right' = pair left right) ↔
      Movable left right := by
  constructor
  · rintro ⟨left', right', different, equal⟩
    rcases lt_trichotomy left.length left'.length with shorter | same | longer
    · obtain ⟨wraps, moved, positive, -, move⟩ := exists_moved_of_lt equal.symm shorter
      exact ⟨wraps, positive, .inl (move.last_eq positive)⟩
    · have bytes := List.append_inj (List.cons.inj equal).2 (by rw [length_run, length_run, same])
      have leftEq := run_inj same.symm bytes.1
      have total := length_add_of_pair_eq equal
      have rightEq := run_inj (by omega) (List.cons.inj bytes.2).2
      exact absurd (Prod.ext leftEq rightEq) different
    · obtain ⟨wraps, moved, positive, rfl, move⟩ := exists_moved_of_lt equal longer
      obtain ⟨item, found, hidden⟩ := move.head_eq positive
      refine ⟨wraps, positive, .inr ⟨?_, item, ?_, hidden.trans move.count_eq⟩⟩
      · rw [List.length_append, move.full]
        omega
      · rw [List.length_append, move.full, Nat.add_sub_cancel,
          List.getElem?_append_right le_rfl, Nat.sub_self, found]
  · rintro ⟨wraps, positive, ⟨item, found, hidden⟩ | ⟨enough, item, found, hidden⟩⟩
    · obtain ⟨moved, rest, move⟩ := exists_moved_of_last positive found hidden
      refine ⟨left ++ moved, rest, fun same => ?_, move.pair_eq left⟩
      have := congrArg List.length (Prod.mk.inj same).2
      have := move.length
      omega
    · obtain ⟨kept, moved, joined, rfl, move⟩ :=
        exists_moved_of_head positive enough found hidden
      refine ⟨kept, joined, fun same => ?_, (move.pair_eq kept).symm⟩
      have := congrArg List.length (Prod.mk.inj same).2
      have := move.length
      omega

end Counted
