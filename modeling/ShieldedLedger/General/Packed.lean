import Mathlib.Data.Nat.Basic
import Mathlib.Tactic.Tauto

/-!
# Words of twelve bits

Two words are packed in three bytes, least significant bits first.  Reducing the
unpacked words and packing them again gives the same bytes exactly when every word
was reduced already.
-/

namespace Packed

/-- Unpack two words from every three bytes. -/
def decode : List UInt8 → List ℕ
  | low :: middle :: high :: rest =>
      (low.toNat + 256 * (middle.toNat % 16)) :: (middle.toNat / 16 + 16 * high.toNat) ::
        decode rest
  | _ => []

/-- Pack every two words in three bytes. -/
def encode : List ℕ → List UInt8
  | first :: second :: rest =>
      UInt8.ofNat (first % 256) :: UInt8.ofNat (first / 256 + 16 * (second % 16)) ::
        UInt8.ofNat (second / 16) :: encode rest
  | _ => []

/-- Bytes that hold no two words are fewer than three. -/
theorem length_lt_of_short {bytes : List UInt8}
    (short : ∀ low middle high rest, bytes = low :: middle :: high :: rest → False) :
    bytes.length < 3 := by
  rcases bytes with _ | ⟨low, _ | ⟨middle, _ | ⟨high, rest⟩⟩⟩
  · decide
  · simp
  · simp
  · exact absurd rfl (short low middle high rest)

/-- Three bytes are the packing of two words exactly when these are what they unpack to. -/
theorem pack_eq_iff {first second : ℕ} (firstFits : first < 4096) (secondFits : second < 4096)
    (low middle high : UInt8) :
    (UInt8.ofNat (first % 256) = low ∧ UInt8.ofNat (first / 256 + 16 * (second % 16)) = middle ∧
        UInt8.ofNat (second / 16) = high) ↔
      first = low.toNat + 256 * (middle.toNat % 16) ∧
        second = middle.toNat / 16 + 16 * high.toNat := by
  have lowLt : low.toNat < 256 := low.toNat_lt
  have middleLt : middle.toNat < 256 := middle.toNat_lt
  have highLt : high.toNat < 256 := high.toNat_lt
  have lowFits : first % 256 < 2 ^ 8 := by omega
  have middleFits : first / 256 + 16 * (second % 16) < 2 ^ 8 := by omega
  have highFits : second / 16 < 2 ^ 8 := by omega
  rw [← UInt8.toNat_inj, ← UInt8.toNat_inj, ← UInt8.toNat_inj, UInt8.toNat_ofNat_of_lt' lowFits,
    UInt8.toNat_ofNat_of_lt' middleFits, UInt8.toNat_ofNat_of_lt' highFits]
  omega

/-- Reducing the words of a packing leaves it alone exactly when they are reduced. -/
theorem encode_map_mod_iff {modulus : ℕ} (positive : 0 < modulus) (narrow : modulus ≤ 4096)
    {bytes : List UInt8} :
    3 ∣ bytes.length →
      (encode ((decode bytes).map fun word => word % modulus) = bytes ↔
        ∀ word ∈ decode bytes, word < modulus) := by
  have reduced (word : ℕ) : word % modulus = word ↔ word < modulus :=
    ⟨fun same => same ▸ Nat.mod_lt word positive, Nat.mod_eq_of_lt⟩
  have fits (word : ℕ) : word % modulus < 4096 :=
    Nat.lt_of_lt_of_le (Nat.mod_lt word positive) narrow
  induction bytes using decode.induct with
  | case1 low middle high rest ih =>
      intro whole
      have rest' : 3 ∣ rest.length := by
        simp only [List.length_cons] at whole
        omega
      rw [decode, List.map_cons, List.map_cons, encode, List.cons.injEq, List.cons.injEq,
        List.cons.injEq, ih rest', List.forall_mem_cons, List.forall_mem_cons, ← reduced,
        ← reduced (middle.toNat / 16 + 16 * high.toNat)]
      have packed := pack_eq_iff (fits (low.toNat + 256 * (middle.toNat % 16)))
        (fits (middle.toNat / 16 + 16 * high.toNat)) low middle high
      tauto
  | case2 bytes short =>
      intro whole
      have length := length_lt_of_short short
      obtain rfl : bytes = [] := List.length_eq_zero_iff.mp (by omega)
      simp [decode, encode]

/-- Bytes that are small enough unpack to reduced words. -/
theorem lt_of_mem_decode {modulus bound : ℕ} (small : 257 * bound ≤ modulus) {bytes : List UInt8} :
    (∀ byte ∈ bytes, byte.toNat < bound) → ∀ word ∈ decode bytes, word < modulus := by
  induction bytes using decode.induct with
  | case1 low middle high rest ih =>
      intro bounded
      simp only [List.forall_mem_cons] at bounded
      obtain ⟨lowLt, middleLt, highLt, restLt⟩ := bounded
      rw [decode, List.forall_mem_cons, List.forall_mem_cons]
      exact ⟨by omega, by omega, ih restLt⟩
  | case2 bytes short =>
      intro bounded word member
      rw [decode] at member
      · cases member
      · exact short

end Packed
