import Mathlib

/-!
# Hexadecimal text

Bytes are written as two lower-case digits each.  The reader takes digits of either
case, so a text is read as some bytes exactly when its lower-case form is what those
bytes are written as.
-/

namespace Hex

/-- The lower-case digit of a value below sixteen. -/
def digit (value : ℕ) : Char := Char.ofNat (if value < 10 then 48 + value else 87 + value)

/-- The value of a digit of either case. -/
def value (char : Char) : Option ℕ :=
  if '0' ≤ char ∧ char ≤ '9' then some (char.toNat - 48)
  else if 'a' ≤ char ∧ char ≤ 'f' then some (char.toNat - 87)
  else if 'A' ≤ char ∧ char ≤ 'F' then some (char.toNat - 55)
  else none

/-- Two digits for each byte, the high half first. -/
def encode (bytes : List UInt8) : List Char :=
  bytes.flatMap fun byte => [digit (byte.toNat / 16), digit (byte.toNat % 16)]

/-- Read two digits for each byte; `none` for a half byte or another character. -/
def decode : List Char → Option (List UInt8)
  | [] => some []
  | [_] => none
  | high :: low :: rest => do
      let highValue ← value high
      let lowValue ← value low
      let bytes ← decode rest
      some (UInt8.ofNat (16 * highValue + lowValue) :: bytes)

@[simp] theorem encode_nil : encode [] = [] := rfl

@[simp] theorem encode_cons (byte : UInt8) (rest : List UInt8) :
    encode (byte :: rest) = digit (byte.toNat / 16) :: digit (byte.toNat % 16) :: encode rest :=
  rfl

theorem encode_drop (size : ℕ) :
    ∀ bytes : List UInt8, encode (bytes.drop size) = (encode bytes).drop (2 * size) := by
  induction size with
  | zero => exact fun bytes => rfl
  | succ size ih =>
      intro bytes
      cases bytes with
      | nil => simp
      | cons byte rest => simp [Nat.mul_succ, ih rest]

theorem encode_take (size : ℕ) :
    ∀ bytes : List UInt8, encode (bytes.take size) = (encode bytes).take (2 * size) := by
  induction size with
  | zero => exact fun bytes => rfl
  | succ size ih =>
      intro bytes
      cases bytes with
      | nil => simp
      | cons byte rest => simp [Nat.mul_succ, ih rest]

/-! ## Lower case -/

theorem toLower_eq_self_iff {char : Char} : char.toLower = char ↔ char.isUpper = false := by
  constructor
  · intro same
    rw [← same]
    exact char.isUpper_toLower_eq_false
  · intro notUpper
    exact Char.toLower_eq_of_not_isUpper (by simp [notUpper])

/-- Lowering leaves a text alone exactly when it has no letter in upper case. -/
theorem map_toLower_eq_iff (text : List Char) :
    text.map Char.toLower = text ↔ ∀ char ∈ text, char.isUpper = false := by
  conv_lhs => rw [← List.map_id text, List.map_map]
  rw [List.map_inj_left]
  exact forall₂_congr fun _ _ => toLower_eq_self_iff

/-! ## Digits -/

/-- Beyond the ASCII range there are no letters to lower. -/
theorem toLower_of_not_ascii {char : Char} (large : 128 ≤ char.toNat) : char.toLower = char := by
  have above : ¬char.val ≤ 'Z'.val := fun le =>
    absurd (large.trans (UInt32.le_iff_toNat_le.mp le)) (by decide)
  exact toLower_eq_self_iff.mpr (decide_eq_false fun range => above range.2)

/-- Beyond the ASCII range there are no digits. -/
theorem value_of_not_ascii {char : Char} (large : 128 ≤ char.toNat) : value char = none := by
  have above (bound : Char) (low : bound.toNat < 128) : ¬char ≤ bound := fun le =>
    absurd (large.trans (UInt32.le_iff_toNat_le.mp le)) (Nat.not_le.mpr low)
  simp [value, above '9' (by decide), above 'f' (by decide), above 'F' (by decide)]

theorem digit_ascii {number : ℕ} (below : number < 16) : (digit number).toNat < 128 := by
  have table : ∀ number : Fin 16, (digit number).toNat < 128 := by
    decide
  exact table ⟨number, below⟩

theorem toLower_digit {number : ℕ} (below : number < 16) :
    (digit number).toLower = digit number := by
  have table : ∀ number : Fin 16, (digit number).toLower = digit number := by
    decide
  exact table ⟨number, below⟩

/-- A character is a digit exactly when its lower-case form is one. -/
theorem value_eq_some_iff {char : Char} {number : ℕ} :
    value char = some number ↔ number < 16 ∧ char.toLower = digit number := by
  have bounded : ∀ code : Fin 128, ∀ found ∈ value (Char.ofNat code), found < 16 := by
    decide
  have table : ∀ (code : Fin 128) (number : Fin 16),
      value (Char.ofNat code) = some number.val ↔ (Char.ofNat code).toLower = digit number := by
    decide +kernel
  rcases lt_or_ge char.toNat 128 with small | large
  · rw [← Char.ofNat_toNat char]
    constructor
    · intro found
      have below := bounded ⟨char.toNat, small⟩ number found
      exact ⟨below, (table ⟨char.toNat, small⟩ ⟨number, below⟩).mp found⟩
    · rintro ⟨below, lower⟩
      exact (table ⟨char.toNat, small⟩ ⟨number, below⟩).mpr lower
  · rw [value_of_not_ascii large, toLower_of_not_ascii large]
    constructor
    · intro found
      cases found
    · rintro ⟨below, rfl⟩
      exact absurd large (Nat.not_le.mpr (digit_ascii below))

/-! ## Texts -/

/-- What two digits and the rest of a text are read as. -/
theorem decode_pair_eq_some_iff {high low : Char} {rest : List Char} {bytes : List UInt8} :
    decode (high :: low :: rest) = some bytes ↔
      ∃ highValue, value high = some highValue ∧ ∃ lowValue, value low = some lowValue ∧
        ∃ others, decode rest = some others ∧
          UInt8.ofNat (16 * highValue + lowValue) :: others = bytes := by
  simp only [decode, Option.bind_eq_bind, Option.bind_eq_some_iff, Option.some.injEq]

/-- A text is read as some bytes exactly when its lower-case form is their encoding. -/
theorem decode_eq_some_iff {text : List Char} :
    ∀ {bytes : List UInt8}, decode text = some bytes ↔ text.map Char.toLower = encode bytes := by
  induction text using decode.induct with
  | case1 =>
      intro bytes
      cases bytes with
      | nil => simp [decode]
      | cons byte rest => simp [decode]
  | case2 char =>
      intro bytes
      cases bytes with
      | nil => simp [decode]
      | cons byte rest => simp [decode]
  | case3 high low rest ih =>
      intro bytes
      rw [decode_pair_eq_some_iff]
      constructor
      · rintro ⟨highValue, highRead, lowValue, lowRead, others, read, rfl⟩
        obtain ⟨highLt, highLower⟩ := value_eq_some_iff.mp highRead
        obtain ⟨lowLt, lowLower⟩ := value_eq_some_iff.mp lowRead
        have fits : 16 * highValue + lowValue < 2 ^ 8 := by omega
        rw [List.map_cons, List.map_cons, encode_cons, UInt8.toNat_ofNat_of_lt' fits, ih.mp read,
          highLower, lowLower, show (16 * highValue + lowValue) / 16 = highValue by omega,
          show (16 * highValue + lowValue) % 16 = lowValue by omega]
      · intro lower
        cases bytes with
        | nil => cases lower
        | cons byte others =>
            have byteLt : byte.toNat < 256 := byte.toNat_lt
            obtain ⟨highLower, tail⟩ := List.cons.inj lower
            obtain ⟨lowLower, others'⟩ := List.cons.inj tail
            refine ⟨_, value_eq_some_iff.mpr ⟨by omega, highLower⟩,
              _, value_eq_some_iff.mpr ⟨by omega, lowLower⟩, others, ih.mpr others', ?_⟩
            rw [Nat.div_add_mod, UInt8.ofNat_toNat]

theorem map_toLower_encode (bytes : List UInt8) :
    (encode bytes).map Char.toLower = encode bytes := by
  induction bytes with
  | nil => rfl
  | cons byte rest ih =>
      have byteLt : byte.toNat < 256 := byte.toNat_lt
      rw [encode_cons, List.map_cons, List.map_cons, ih, toLower_digit (by omega),
        toLower_digit (Nat.mod_lt _ (by decide))]

/-- Digits in upper case are read as the same bytes. -/
theorem decode_map_toUpper_encode (bytes : List UInt8) :
    decode ((encode bytes).map Char.toUpper) = some bytes := by
  have lowered : Char.toLower ∘ Char.toUpper = Char.toLower :=
    funext Char.toLower_toUpper_eq_toLower
  rw [decode_eq_some_iff, List.map_map, lowered, map_toLower_encode]

@[simp] theorem decode_encode (bytes : List UInt8) : decode (encode bytes) = some bytes :=
  decode_eq_some_iff.mpr (map_toLower_encode bytes)

/-- The digits of a slice are read as the slice. -/
theorem decode_slice {text : List Char} {bytes : List UInt8} (read : decode text = some bytes)
    (start size : ℕ) :
    decode ((text.drop (2 * start)).take (2 * size)) = some ((bytes.drop start).take size) := by
  rw [decode_eq_some_iff] at read ⊢
  rw [List.map_take, List.map_drop, read, encode_take, encode_drop]

end Hex
