import Mathlib.Data.Vector.Basic
import Mathlib.Data.List.Lex
import Mathlib.Order.Basic
import Mathlib.Tactic.Ring

/-!
# Byte strings, little-endian words and length-prefixed framing

Fixed-size byte arrays are length-indexed lists, so a value of the wrong length
cannot be built.  The framing of a list of parts prefixes every part with its
length in eight little-endian bytes; it is injective on lists whose parts are
shorter than `2 ^ 64`.
-/

namespace Bytes

/-- A fixed-size byte array. -/
abbrev Array (size : ℕ) := List.Vector UInt8 size

/-- The array holding `size` copies of one byte. -/
def filled (size : ℕ) (byte : UInt8) : Array size := List.Vector.replicate size byte

/-- Arrays of one size are ordered lexicographically, byte by byte. -/
instance instLinearOrder {size : ℕ} : LinearOrder (Array size) :=
  LinearOrder.lift' (fun bytes : Array size => bytes.toList.map UInt8.toNat)
    fun left right equal =>
      List.Vector.eq left right
        (List.map_injective_iff.mpr (fun _ _ => UInt8.toNat_inj.mp) equal)

/-- The `size` bytes of an array from a start on. -/
def slice {total : ℕ} (bytes : Array total) (start size : ℕ) (inside : start + size ≤ total) :
    Array size :=
  ⟨(bytes.toList.drop start).take size, by
    rw [List.length_take, List.length_drop, bytes.toList_length]
    omega⟩

/-- A slice is found at its place in the whole. -/
theorem slice_eq {total start size : ℕ} {bytes : Array total} {part : Array size}
    (inside : start + size ≤ total) (before after : List UInt8) (placed : before.length = start)
    (split : bytes.toList = before ++ (part.toList ++ after)) :
    slice bytes start size inside = part := by
  apply List.Vector.eq
  change (bytes.toList.drop start).take size = part.toList
  rw [split, List.drop_left' placed, List.take_left' part.toList_length]

/-- What follows a place is the slice there and what follows the slice. -/
theorem drop_eq_slice_append {total : ℕ} (bytes : Array total) (start size : ℕ)
    (inside : start + size ≤ total) :
    bytes.toList.drop start =
      (slice bytes start size inside).toList ++ bytes.toList.drop (start + size) := by
  rw [← List.drop_drop]
  exact (List.take_append_drop size _).symm

/-- The low `size` bytes of a number, least significant first. -/
def littleEndian : (size : ℕ) → (value : ℕ) → List UInt8
  | 0, _ => []
  | size + 1, value => UInt8.ofNat (value % 256) :: littleEndian size (value / 256)

/-- The number whose little-endian bytes are given. -/
def ofLittleEndian : List UInt8 → ℕ
  | [] => 0
  | byte :: rest => byte.toNat + 256 * ofLittleEndian rest

@[simp] theorem length_littleEndian (size value : ℕ) :
    (littleEndian size value).length = size := by
  induction size generalizing value with
  | zero => rfl
  | succ size ih => simp [littleEndian, ih]

@[simp] theorem ofLittleEndian_littleEndian (size value : ℕ) :
    ofLittleEndian (littleEndian size value) = value % 256 ^ size := by
  induction size generalizing value with
  | zero => simp [littleEndian, ofLittleEndian, Nat.mod_one]
  | succ size ih =>
      have byteLt : value % 256 < 2 ^ 8 := Nat.mod_lt _ (by decide)
      simp only [littleEndian, ofLittleEndian, ih, UInt8.toNat_ofNat_of_lt' byteLt]
      rw [pow_succ', Nat.mod_mul]

theorem ofLittleEndian_lt (bytes : List UInt8) :
    ofLittleEndian bytes < 256 ^ bytes.length := by
  induction bytes with
  | nil => simp [ofLittleEndian]
  | cons byte rest ih =>
      have byteLt := byte.toNat_lt
      simp only [ofLittleEndian, List.length_cons, pow_succ]
      omega

/-- Bytes are the little-endian bytes of the number they read as. -/
theorem littleEndian_ofLittleEndian (bytes : List UInt8) :
    littleEndian bytes.length (ofLittleEndian bytes) = bytes := by
  induction bytes with
  | nil => rfl
  | cons byte rest ih =>
      have byteLt : byte.toNat < 256 := byte.toNat_lt
      have low : (byte.toNat + 256 * ofLittleEndian rest) % 256 = byte.toNat := by omega
      have high : (byte.toNat + 256 * ofLittleEndian rest) / 256 = ofLittleEndian rest := by omega
      simp only [List.length_cons, littleEndian, ofLittleEndian, low, high, ih, UInt8.ofNat_toNat]

/-- Little-endian bytes determine every number that fits in them. -/
theorem littleEndian_inj {size left right : ℕ} (leftLt : left < 256 ^ size)
    (rightLt : right < 256 ^ size) :
    littleEndian size left = littleEndian size right ↔ left = right := by
  constructor
  · intro equal
    have values := congrArg ofLittleEndian equal
    simpa [Nat.mod_eq_of_lt leftLt, Nat.mod_eq_of_lt rightLt] using values
  · rintro rfl
    rfl

/-- Every part, prefixed by its length as an eight-byte little-endian word. -/
def frame (parts : List (List UInt8)) : List UInt8 :=
  parts.flatMap fun part => littleEndian 8 part.length ++ part

@[simp] theorem frame_nil : frame [] = [] := rfl

@[simp] theorem frame_cons (part : List UInt8) (parts : List (List UInt8)) :
    frame (part :: parts) = littleEndian 8 part.length ++ (part ++ frame parts) := by
  simp [frame]

/-- Every part is shorter than the largest length its prefix can carry. -/
def Framable (parts : List (List UInt8)) : Prop := ∀ part ∈ parts, part.length < 2 ^ 64

@[simp] theorem framable_nil : Framable [] := by
  intro part member
  cases member

@[simp] theorem framable_cons {part : List UInt8} {parts : List (List UInt8)} :
    Framable (part :: parts) ↔ part.length < 2 ^ 64 ∧ Framable parts :=
  List.forall_mem_cons

/-- The framing separates any two lists of parts, whatever their lengths. -/
theorem frame_inj {left right : List (List UInt8)} (leftFits : Framable left)
    (rightFits : Framable right) : frame left = frame right ↔ left = right := by
  constructor
  · intro equal
    induction left generalizing right with
    | nil =>
        cases right with
        | nil => rfl
        | cons part parts =>
            have lengths := congrArg List.length equal
            simp at lengths
            omega
    | cons part parts ih =>
        cases right with
        | nil =>
            have lengths := congrArg List.length equal
            simp at lengths
        | cons other others =>
            rw [frame_cons, frame_cons] at equal
            have split := List.append_inj equal (by simp)
            have lengthEq : part.length = other.length := by
              refine (@littleEndian_inj 8 _ _ ?_ ?_).mp split.1
              · exact lt_of_lt_of_le (leftFits part (by simp)) (by norm_num)
              · exact lt_of_lt_of_le (rightFits other (by simp)) (by norm_num)
            have partSplit := List.append_inj split.2 lengthEq
            rw [partSplit.1, ih (fun item membership => leftFits item (by simp [membership]))
              (fun item membership => rightFits item (by simp [membership])) partSplit.2]
  · rintro rfl
    rfl

end Bytes
